/-
# A program behind another

A program is put behind another one.  If the first ends at the goal or is blocked,
the second is never looked at.  If the first is used up, the second goes on from
where it has led, as it would by itself, and only the index of a blocked move is
counted from the first program on.  The seam needs no care: a program that is used
up by its last move, or has no moves at all, stands where the other begins, and
that this is the goal does not count before a move has led there
(`execute_append`).
-/

import Labyrinth.Proofs.Execution.Verdict
import Labyrinth.Proofs.Search.Shortest

namespace Labyrinth

/-- Outcomes with the same ending and the same points are the same. -/
theorem Outcome.eq_of_points {r r' : Outcome} (hending : r.ending = r'.ending)
    (hpoints : r.path.toList.map Position.point = r'.path.toList.map Position.point) :
    r = r' := by
  have hpath : r.path.toList = r'.path.toList :=
    (List.map_inj_right fun _ _ => Position.point_inj.1).1 hpoints
  cases r
  cases r'
  simp_all

namespace Maze

variable {m : Maze} {a goal : Int × Int} {first : List Direction}

/-- **A verdict that is out stands**, whatever moves follow. -/
theorem verdict_append_of_ne (h : (m.verdict a goal first).1 ≠ .exhausted)
    (second : List Direction) :
    m.verdict a goal (first ++ second) = m.verdict a goal first := by
  induction first generalizing a with
  | nil => exact absurd rfl h
  | cons d ds ih =>
    rw [List.cons_append]
    cases hopen : m.isOpenAt (d.shift a) with
    | false => rw [verdict_barred hopen, verdict_barred hopen]
    | true =>
      by_cases hgoal : d.shift a = goal
      · rw [← hgoal, verdict_arrived hopen, verdict_arrived hopen]
      · rw [verdict_advance hopen hgoal, Ne, Ending.later_eq_exhausted_iff] at h
        rw [verdict_advance hopen hgoal, verdict_advance hopen hgoal, ih h]

/-- **After moves that are used up the verdict is that on the moves behind them**,
from the last point on. -/
theorem verdict_append_of_exhausted (h : (m.verdict a goal first).1 = .exhausted)
    (second : List Direction) :
    ∃ b, (m.verdict a goal first).2.getLast? = some b ∧
      m.verdict a goal (first ++ second) =
        ((m.verdict b goal second).1.later first.length,
          (m.verdict a goal first).2 ++ (m.verdict b goal second).2.tail) := by
  induction first generalizing a with
  | nil =>
    refine ⟨a, rfl, ?_⟩
    rw [List.nil_append, verdict_nil, List.length_nil, Ending.later_zero, List.singleton_append,
      ← verdict_path_eq_cons]
  | cons d ds ih =>
    cases hopen : m.isOpenAt (d.shift a) with
    | false =>
      rw [verdict_barred hopen] at h
      cases h
    | true =>
      by_cases hgoal : d.shift a = goal
      · rw [← hgoal, verdict_arrived hopen] at h
        cases h
      · rw [verdict_advance hopen hgoal, Ending.later_eq_exhausted_iff] at h
        obtain ⟨b, hb, hverdict⟩ := ih h
        refine ⟨b, ?_, ?_⟩
        · rw [verdict_advance hopen hgoal, List.getLast?_cons, hb, Option.getD_some]
        · rw [List.cons_append, verdict_advance hopen hgoal, verdict_advance hopen hgoal, hverdict,
            Ending.later_later, List.length_cons, List.cons_append, Nat.add_comm]

end Maze

/-- **Executing a program behind another.**  If the first program reaches the goal
or is blocked, its outcome is that of both.  If it is used up, its path has a last
position, and the second program is executed from there: both programs end as the
second does, except that a blocked move counts the moves of the first program too,
and their path is that of the first, continued by that of the second without its
first position. -/
theorem execute_append (m : Maze) (start goal : Position) (first second : List Direction) :
    let r := execute m start goal first
    let both := execute m start goal (first ++ second)
    (r.ending ≠ .exhausted → both = r) ∧
    (r.ending = .exhausted → ∃ last, r.path.back? = some last ∧
      let r' := execute m last goal second
      both.ending = r'.ending.later first.length ∧
        both.path.toList = r.path.toList ++ r'.path.toList.tail) := by
  intro r both
  have hending : r.ending = _ := ending_execute m start goal first
  have hpoints : r.path.toList.map _ = _ := points_execute m start goal first
  have hending' : both.ending = _ := ending_execute m start goal (first ++ second)
  have hpoints' : both.path.toList.map _ = _ := points_execute m start goal (first ++ second)
  constructor
  · intro hne
    rw [hending] at hne
    rw [Maze.verdict_append_of_ne hne] at hending' hpoints'
    exact Outcome.eq_of_points (hending'.trans hending.symm) (hpoints'.trans hpoints.symm)
  · intro hexhausted
    rw [hending] at hexhausted
    obtain ⟨b, hb, hverdict⟩ := Maze.verdict_append_of_exhausted hexhausted second
    rw [← hpoints, List.getLast?_map, Option.map_eq_some_iff] at hb
    obtain ⟨last, hlast, rfl⟩ := hb
    refine ⟨last, by rw [← Array.getLast?_toList, hlast], ?_, ?_⟩
    · rw [hending', hverdict, ending_execute]
    · refine (List.map_inj_right fun _ _ => Position.point_inj.1).1 ?_
      rw [hpoints', hverdict, List.map_append, hpoints, List.map_tail, points_execute]

/-- Down the left side of the block of walls two moves are used up.  Behind them the
third of four moves is blocked, the fifth of both programs; behind five moves the
last of which is blocked, two more are not made. -/
theorem execute_append_ring :
    let start : Position := .nearest 0 0
    let goal : Position := .nearest 4 3
    let both := execute Maze.ring start goal ([.down, .down] ++ [.down, .right, .up, .right])
    let behind := execute Maze.ring (.nearest 0 2) goal [.down, .right, .up, .right]
    behind.ending = .blocked 2 ∧ both.ending = .blocked 4 ∧
      both.path.toList = [start, .nearest 0 1, .nearest 0 2] ++ behind.path.toList.tail ∧
      execute Maze.ring start goal ([.down, .down, .down, .right, .up] ++ [.right, .right]) =
        execute Maze.ring start goal [.down, .down, .down, .right, .up] := by
  intro start goal both behind
  have hfirst : execute Maze.ring start goal [.down, .down] =
      ⟨.exhausted, #[start, .nearest 0 1, .nearest 0 2]⟩ := by decide +kernel
  have hbehind : behind.ending = .blocked 2 := by decide +kernel
  have hblocked : (execute Maze.ring start goal [.down, .down, .down, .right, .up]).ending ≠
      .exhausted := by decide +kernel
  obtain ⟨-, hafter⟩ :=
    execute_append Maze.ring start goal [.down, .down] [.down, .right, .up, .right]
  rw [hfirst] at hafter
  obtain ⟨last, hlast, hending, hpath⟩ := hafter rfl
  obtain rfl : Position.nearest 0 2 = last := Option.some.inj hlast
  exact ⟨hbehind, hending.trans (congrArg (Ending.later 2) hbehind), hpath,
    (execute_append Maze.ring start goal _ [.right, .right]).1 hblocked⟩

end Labyrinth
