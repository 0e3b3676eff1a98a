/-
# Walking back

From an open cell a program is used up exactly if its moves are a walk that keeps
off the goal, and the path is then that of the walk (`execute_of_walk`,
`walk_of_execute_exhausted`).  Walks can be turned round, so the same goes for the
turned program from where the first one ended, unless the character stood on the
goal to begin with: the start does not count for the goal on the way out, but it is
the last cell on the way back.

A route is a walk as well, and no walk is shorter.  So the routes between two cells
are as long one way as the other, though they need not go through the same cells
(`Maze.exists_shortestRoute?_back`).
-/

import Labyrinth.Proofs.Execution.Solving

namespace Labyrinth

/-- Turning round keeps the number of moves. -/
@[simp]
theorem length_turned (ds : List Direction) : (turned ds).length = ds.length := by
  simp [turned]

/-! ## Programs that are used up -/

/-- **A run that uses up its moves has made a walk of them**, off the goal. -/
theorem Execution.walk_of_run_exhausted {m : Maze} {e : Execution} (h : e.result = none)
    (hopen : m.isOpen e.position) (hexhausted : (e.run m).1.ending = .exhausted) :
    (∃ last, m.Walk e.position e.rest last) ∧ e.goal ∉ (e.position.path e.rest).tail := by
  generalize hrest : e.rest = ds
  induction ds generalizing e with
  | nil => exact ⟨⟨_, .stay hopen⟩, List.not_mem_nil⟩
  | cons d ds ih =>
    cases hmove : m.canMove e.position d with
    | false =>
      rw [run_barred h hrest hmove] at hexhausted
      cases hexhausted
    | true =>
      obtain ⟨hl, hnext⟩ := Maze.canMove_iff.1 hmove
      by_cases hgoal : e.position.move d = e.goal
      · rw [run_arrived h hrest hmove hgoal] at hexhausted
        cases hexhausted
      · rw [run_advance h hrest hmove hgoal] at hexhausted
        obtain ⟨⟨last, hw⟩, hoff⟩ := ih (e := e.advance d) h hnext hexhausted (rest_advance hrest)
        refine ⟨⟨last, .go hopen hl hw⟩, ?_⟩
        rw [Position.path, List.tail_cons, Position.path_eq_cons, List.mem_cons, not_or]
        exact ⟨Ne.symm hgoal, hoff⟩

variable {m : Maze} {start goal last : Position} {program : List Direction} {path : Array Position}

/-- **A program that is used up is a walk**, and the goal is not on it. -/
theorem walk_of_execute_exhausted (hopen : m.isOpen start)
    (h : (execute m start goal program).ending = .exhausted) :
    (∃ last, m.Walk start program last) ∧ goal ∉ (start.path program).tail :=
  Execution.walk_of_run_exhausted (e := .start start goal program) rfl hopen h

/-- **The moves of a walk off the goal are used up**, along its path. -/
theorem execute_of_walk (hw : m.Walk start program last)
    (hgoal : goal ∉ (start.path program).tail) :
    execute m start goal program = ⟨.exhausted, (start.path program).toArray⟩ := by
  have hrest : (Execution.start start goal program).rest = program ++ [] :=
    (List.append_nil program).symm
  have hresult : ((Execution.start start goal program).advances program).result = none :=
    Execution.result_advances ..
  rw [execute, Execution.run_along rfl hw hgoal hrest,
    Execution.run_usedUp hresult (Execution.rest_advances hrest)]
  refine congrArg (Outcome.mk .exhausted) (Array.toList_inj.1 ?_)
  rw [Execution.path_advances, List.toList_toArray]
  exact (start.path_eq_cons program).symm

/-- **A program that is used up can be taken back.** -/
theorem execute_turned (hopen : m.isOpen start) (hne : goal ≠ start)
    (h : execute m start goal program = ⟨.exhausted, path⟩) :
    ∃ last, path.back? = some last ∧
      execute m last goal (turned program) = ⟨.exhausted, path.reverse⟩ := by
  obtain ⟨⟨last, hw⟩, hoff⟩ := walk_of_execute_exhausted hopen (congrArg Outcome.ending h)
  rw [execute_of_walk hw hoff] at h
  obtain rfl := congrArg Outcome.path h
  have hback : goal ∉ (last.path (turned program)).tail := by
    rw [hw.path_back]
    intro hmem
    have hgoal := List.mem_reverse.1 (List.mem_of_mem_tail hmem)
    rw [start.path_eq_cons, List.mem_cons] at hgoal
    exact hgoal.elim hne hoff
  refine ⟨last, ?_, ?_⟩
  · rw [List.back?_toArray, hw.getLast?_path]
  · rw [execute_of_walk hw.back hback, hw.path_back, List.reverse_toArray]

/-! ## Routes -/

/-- **The way back is as long as the way there.** -/
theorem Maze.exists_shortestRoute?_back {a b : Position} {ds : List Direction}
    (h : m.shortestRoute? a b = some ds) :
    ∃ es, m.shortestRoute? b a = some es ∧ es.length = ds.length := by
  obtain ⟨hw, hleast⟩ := least_of_shortestRoute? h
  obtain ⟨es, hes, hle⟩ := exists_shortestRoute?_le hw.back
  have hge := length_le_of_rank_le (hleast _ (least_of_shortestRoute? hes).1.back)
  rw [length_turned] at hle hge
  exact ⟨es, hes, Nat.le_antisymm hle hge⟩

/-- **Walks can be retraced.**  Let a program from an open cell that is not the goal be
used up.  Then its moves taken back, the last one first and each in the opposite
direction, are used up as well from where it has led, and their path is its path
reversed.  And for any two open cells, either there is no route in either direction,
or there are routes both ways, of the same length. -/
theorem walks_can_be_retraced (m : Maze) :
    (∀ start goal program path, m.isOpen start → goal ≠ start →
      execute m start goal program = ⟨.exhausted, path⟩ →
        ∃ last, path.back? = some last ∧
          execute m last goal (turned program) = ⟨.exhausted, path.reverse⟩) ∧
    ∀ a b, m.isOpen a → m.isOpen b →
      (m.shortestRoute? a b = none ∧ m.shortestRoute? b a = none) ∨
      ∃ ds es, m.shortestRoute? a b = some ds ∧ m.shortestRoute? b a = some es ∧
        ds.length = es.length := by
  refine ⟨fun start goal program path hopen hne h => execute_turned hopen hne h,
    fun a b _ _ => ?_⟩
  cases hab : m.shortestRoute? a b with
  | some ds =>
    obtain ⟨es, hes, hlength⟩ := Maze.exists_shortestRoute?_back hab
    exact Or.inr ⟨ds, es, rfl, hes, hlength.symm⟩
  | none =>
    refine Or.inl ⟨rfl, Option.eq_none_iff_forall_ne_some.2 fun es hes => ?_⟩
    obtain ⟨ds, hds, -⟩ := Maze.exists_shortestRoute?_back hes
    rw [hab] at hds
    cases hds

/-- Down the left side of the block of walls, two cells and one back: taken back, the
moves are one down and two up.  The seven moves round the block are seven from the
other end too. -/
theorem walks_can_be_retraced_ring :
    execute Maze.ring (.nearest 0 1) (.nearest 4 3) [.down, .up, .up] =
      ⟨.exhausted, #[.nearest 0 1, .nearest 0 2, .nearest 0 1, .nearest 0 0]⟩ ∧
    ∃ es, Maze.ring.shortestRoute? (.nearest 4 3) (.nearest 0 0) = some es ∧ 7 = es.length := by
  have hout : execute Maze.ring (.nearest 0 0) (.nearest 4 3) [.down, .down, .up] =
      ⟨.exhausted, #[.nearest 0 0, .nearest 0 1, .nearest 0 2, .nearest 0 1]⟩ := by decide +kernel
  have hroute : Maze.ring.shortestRoute? (.nearest 0 0) (.nearest 4 3) =
      some [.down, .down, .down, .right, .right, .right, .right] := by decide +kernel
  obtain ⟨hruns, hroutes⟩ := walks_can_be_retraced Maze.ring
  obtain ⟨last, hlast, hback⟩ := hruns _ _ _ _ (by decide) (by decide) hout
  obtain rfl : Position.nearest 0 1 = last := Option.some.inj hlast
  rw [List.reverse_toArray] at hback
  refine ⟨hback, ?_⟩
  rcases hroutes (.nearest 0 0) (.nearest 4 3) (by decide) (by decide) with
    ⟨hnone, -⟩ | ⟨ds, es, hds, hes, hlength⟩
  · rw [hroute] at hnone
    cases hnone
  · rw [hroute] at hds
    obtain rfl := Option.some.inj hds
    exact ⟨es, hes, hlength⟩

end Labyrinth
