/-
# More open cells

Two mazes are compared in which a program is run, one with at least the open cells of
the other (`Maze.Opened`).  As long as the run in the first maze is not blocked, the
other one makes the same moves and stops where it does.  Where it is blocked, the
other one has come at least as far (`Maze.Opened.verdict`).  It does not matter where
the further cells are, or whether the start is a cell of the maze at all.

A walk stays a walk when cells are opened, so the routes cannot get longer, although
the search goes through the larger maze in another order.  All this holds after any
positions were carved, one after the other (`opening_never_hurts`).
-/

import Labyrinth.Proofs.Execution.Continuing
import Labyrinth.Proofs.Maze.OpenCells

namespace Labyrinth

namespace Maze

variable {m m' m'' : Maze} {a goal : Int × Int} {start target : Position}

/-! ## Opening cells -/

/-- Every open cell of `m` is open in `m'`. -/
def Opened (m m' : Maze) : Prop := ∀ p, m.isOpen p → m'.isOpen p

/-- A maze is no more open than itself. -/
theorem Opened.refl (m : Maze) : m.Opened m := fun _ h => h

/-- Opening goes on. -/
theorem Opened.trans (h : m.Opened m') (h' : m'.Opened m'') : m.Opened m'' :=
  fun p hp => h' p (h p hp)

/-- A cell that is opened closes no other one. -/
theorem opened_carve (m : Maze) (p : Position) : m.Opened (m.carve p) := by
  intro q hq
  cases hp : m.get? p with
  | none => rwa [carve, Grid.modify_of_get?_eq_none hp]
  | some c => exact (isOpen_carve hp).2 (Or.inr hq)

/-- **Carving opens cells and closes none**, inside the grid or outside. -/
theorem opened_foldl_carve (m : Maze) (ps : List Position) : m.Opened (ps.foldl carve m) := by
  induction ps generalizing m with
  | nil => exact .refl m
  | cons p ps ih => exact (m.opened_carve p).trans (ih (m.carve p))

/-- What is open at a point stays open. -/
theorem Opened.isOpenAt (h : m.Opened m') (ha : m.isOpenAt a = true) : m'.isOpenAt a = true := by
  rw [Maze.isOpenAt, Option.any_eq_true] at ha ⊢
  obtain ⟨p, hp, hopen⟩ := ha
  exact ⟨p, hp, h p hopen⟩

/-! ## Verdicts -/

/-- A verdict that gets at least as far as another one: it is the same, or the other
one is blocked, somewhere along its points and not later. -/
def GetsAsFar (v v' : Ending × List (Int × Int)) : Prop :=
  v' = v ∨ ∃ k, v.1 = .blocked k ∧ v.2 <+: v'.2 ∧ ∀ k', v'.1 = .blocked k' → k ≤ k'

/-- With one move more in front of both it still does. -/
theorem GetsAsFar.cons {v v' : Ending × List (Int × Int)} (h : GetsAsFar v v') :
    GetsAsFar (v.1.later 1, a :: v.2) (v'.1.later 1, a :: v'.2) := by
  rcases h with rfl | ⟨k, hk, hpoints, hlater⟩
  · exact Or.inl rfl
  · refine Or.inr ⟨k + 1, Ending.later_eq_blocked_iff.2 ⟨k, hk, rfl⟩,
      List.cons_prefix_cons.2 ⟨rfl, hpoints⟩, fun k' hk' => ?_⟩
    obtain ⟨j, hj, rfl⟩ := Ending.later_eq_blocked_iff.1 hk'
    exact Nat.succ_le_succ (hlater j hj)

/-- **In a maze with more open cells a program gets at least as far.** -/
theorem Opened.verdict (h : m.Opened m') (a goal : Int × Int) (ds : List Direction) :
    GetsAsFar (m.verdict a goal ds) (m'.verdict a goal ds) := by
  induction ds generalizing a with
  | nil => exact Or.inl rfl
  | cons d ds ih =>
    cases hopen : m.isOpenAt (d.shift a) with
    | false =>
      -- nothing is asked of the other run here but that it begins at the same point
      refine Or.inr ⟨0, ?_, ?_, fun k' _ => Nat.zero_le k'⟩
      · rw [verdict_barred hopen]
      · rw [verdict_barred hopen, m'.verdict_path_eq_cons]
        exact List.cons_prefix_cons.2 ⟨rfl, List.nil_prefix⟩
    | true =>
      have hopen' := h.isOpenAt hopen
      by_cases hgoal : d.shift a = goal
      · rw [← hgoal, verdict_arrived hopen, verdict_arrived hopen']
        exact Or.inl rfl
      · rw [verdict_advance hopen hgoal, verdict_advance hopen' hgoal]
        exact (ih (d.shift a)).cons

/-! ## Routes -/

/-- **In a maze with more open cells the routes are not longer.** -/
theorem Opened.exists_shortestRoute? (h : m.Opened m') {ds : List Direction}
    (hds : m.shortestRoute? start target = some ds) :
    ∃ es, m'.shortestRoute? start target = some es ∧ es.length ≤ ds.length :=
  exists_shortestRoute?_le ((least_of_shortestRoute? hds).1.mono h)

end Maze

variable {m m' : Maze}

/-- **A program that is not blocked takes no notice of more open cells, and a blocked
one gets at least as far.** -/
theorem execute_of_opened (h : m.Opened m') (start goal : Position) (program : List Direction) :
    let r := execute m start goal program
    let r' := execute m' start goal program
    (r.ending = .reached ∨ r.ending = .exhausted → r' = r) ∧
    ∀ k, r.ending = .blocked k →
      r.path.toList <+: r'.path.toList ∧ ∀ k', r'.ending = .blocked k' → k ≤ k' := by
  intro r r'
  have hending : r.ending = _ := ending_execute m start goal program
  have hpoints : r.path.toList.map _ = _ := points_execute m start goal program
  have hending' : r'.ending = _ := ending_execute m' start goal program
  have hpoints' : r'.path.toList.map _ = _ := points_execute m' start goal program
  rcases h.verdict start.point goal.point program with hsame | ⟨k, hk, hbegins, hlater⟩
  · rw [hsame] at hending' hpoints'
    have heq : r' = r :=
      Outcome.eq_of_points (hending'.trans hending.symm) (hpoints'.trans hpoints.symm)
    refine ⟨fun _ => heq, fun k hk => ?_⟩
    rw [heq, hk]
    exact ⟨List.prefix_rfl, fun k' hk' => Nat.le_of_eq (Ending.blocked.inj hk')⟩
  · rw [← hending] at hk
    rw [← hpoints, ← hpoints', List.prefix_map_iff_of_injective fun _ _ => Position.point_inj.1]
      at hbegins
    rw [← hending'] at hlater
    constructor
    · rw [hk]
      rintro (⟨⟨⟩⟩ | ⟨⟨⟩⟩)
    · intro j hj
      obtain rfl := Ending.blocked.inj (hk.symm.trans hj)
      exact ⟨hbegins, hlater⟩

/-- **Opening cells never hurts.**  Let any positions be carved in a maze, inside the
grid or outside.  A program that reached its goal or was used up has the same outcome
after that, wherever it starts.  If it was blocked, its path is the beginning of the
new one, and it is not blocked by an earlier move than before.  Where there was a
route there is one still, and it is not longer. -/
theorem opening_never_hurts (m : Maze) (ps : List Position) :
    let m' := ps.foldl Maze.carve m
    (∀ start goal program,
      let r := execute m start goal program
      let r' := execute m' start goal program
      (r.ending = .reached ∨ r.ending = .exhausted → r' = r) ∧
      ∀ k, r.ending = .blocked k →
        r.path.toList <+: r'.path.toList ∧ ∀ k', r'.ending = .blocked k' → k ≤ k') ∧
    ∀ start goal ds, m.shortestRoute? start goal = some ds →
      ∃ es, m'.shortestRoute? start goal = some es ∧ es.length ≤ ds.length := by
  intro m'
  have hopened : m.Opened m' := m.opened_foldl_carve ps
  exact ⟨fun start goal program => execute_of_opened hopened start goal program,
    fun start goal ds hds => hopened.exists_shortestRoute? hds⟩

/-- The middle row of the block of walls is carved, and a position far outside.  One
down and to the right the character was blocked by its second move, and now comes to
the other side, where its sixth is into a wall.  Down the left side nothing changes.
The route from side to side had six moves. -/
theorem opening_never_hurts_ring :
    let m' :=
      [.nearest 1 1, .nearest 2 1, .nearest 3 1, .nearest 70 (-4)].foldl Maze.carve Maze.ring
    let across : List Direction := [.down, .right, .right, .right, .right, .right]
    execute m' (.nearest 0 0) (.nearest 4 3) [.down, .down] =
      execute Maze.ring (.nearest 0 0) (.nearest 4 3) [.down, .down] ∧
    [.nearest 0 0, .nearest 0 1] <+: (execute m' (.nearest 0 0) (.nearest 4 3) across).path.toList ∧
    (∃ k', (execute m' (.nearest 0 0) (.nearest 4 3) across).ending = .blocked k' ∧ 1 ≤ k') ∧
    ∃ es, m'.shortestRoute? (.nearest 0 1) (.nearest 4 1) = some es ∧ es.length ≤ 6 := by
  intro m' across
  obtain ⟨hruns, hroutes⟩ := opening_never_hurts Maze.ring
    [.nearest 1 1, .nearest 2 1, .nearest 3 1, .nearest 70 (-4)]
  obtain ⟨hsame, -⟩ := hruns (.nearest 0 0) (.nearest 4 3) [.down, .down]
  obtain ⟨-, hblocked⟩ := hruns (.nearest 0 0) (.nearest 4 3) across
  obtain ⟨hpath, hlater⟩ := hblocked 1 (by decide +kernel)
  have hbefore : (execute Maze.ring (.nearest 0 0) (.nearest 4 3) across).path.toList =
      [.nearest 0 0, .nearest 0 1] := by decide +kernel
  have hafter : (execute m' (.nearest 0 0) (.nearest 4 3) across).ending = .blocked 5 := by
    decide +kernel
  have hroute : Maze.ring.shortestRoute? (.nearest 0 1) (.nearest 4 1) =
      some [.up, .right, .right, .right, .right, .down] := by decide +kernel
  rw [hbefore] at hpath
  exact ⟨hsame (Or.inr (by decide +kernel)), hpath, ⟨5, hafter, hlater 5 hafter⟩,
    hroutes _ _ _ hroute⟩

end Labyrinth
