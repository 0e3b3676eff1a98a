/-
# Shortest routes are shortest

The links of a search lead back to the start from every cell that it reached,
along the trail of the cell and within as many links as there are
(`Search.Charted.route`).  So the route to a goal that was found is a walk of
least rank (`Maze.least_of_shortestRoute?`), a shortest one among others, and
there is a route whenever there is a walk.  Where many walks are equally short,
the route is the one that comes first (`Maze.shortestRoute?_first`).
-/

import Labyrinth.Maze.Text
import Labyrinth.Proofs.Search.Survey
import Mathlib.Logic.Function.Iterate

namespace Labyrinth

namespace Search

variable {maze : Maze} {start goal p : Position} {trail : Position → List Direction} {s : Search}

/-- Following the links from a reached cell gives its trail. -/
theorem Charted.retrace (h : s.Charted maze start trail) {n : Nat} (hp : s.Reached start p)
    (hn : (trail p).length ≤ n) (moves : List Direction) :
    s.retrace start n p moves = .ok (trail p ++ moves) := by
  induction n generalizing p moves with
  | zero =>
    by_cases hs : p = start
    · rw [hs, retrace_start, h.trail_start, List.nil_append]
    · obtain ⟨l, hl⟩ := Option.isSome_iff_exists.1 (hp.resolve_left hs)
      rw [(h.trail_link p l hl).2.2, List.length_append, List.length_singleton] at hn
      omega
  | succ n ih =>
    by_cases hs : p = start
    · rw [hs, retrace_start, h.trail_start, List.nil_append]
    · obtain ⟨l, hl⟩ := Option.isSome_iff_exists.1 (hp.resolve_left hs)
      obtain ⟨-, hr, ht⟩ := h.trail_link p l hl
      rw [ht, List.length_append, List.length_singleton] at hn
      rw [retrace_link hs hl, ih hr (by omega), ht, List.append_assoc, List.singleton_append]

/-- **The way back never goes astray.** -/
theorem Charted.route (h : s.Charted maze start trail) (hp : s.Reached start p) :
    s.route start p = .ok (trail p) := by
  rw [Search.route, h.retrace hp (h.length_le p hp), List.append_nil]

/-- A search ends after some number of rounds. -/
theorem run_eq_iterate (maze : Maze) (start goal : Position) (s : Search) :
    ∃ n, s.run maze start goal = (step maze start goal)^[n] s ∧
      (s.run maze start goal).isOver := by
  induction s using Search.run.induct maze start goal with
  | case1 s hover =>
    rw [Search.run, dif_pos hover]
    exact ⟨0, rfl, hover⟩
  | case2 s hover ih =>
    rw [Search.run, dif_neg hover]
    obtain ⟨n, hn, hover'⟩ := ih
    exact ⟨n + 1, hn, hover'⟩

/-- **A search from an open cell arrives by a walk of least rank, or there is no
walk.** -/
theorem run_ofStart (ho : maze.isOpen start) (goal : Position) :
    (((ofStart maze start goal).run maze start goal).found = true ∧
        ∃ trail, Arrived maze start goal trail ((ofStart maze start goal).run maze start goal)) ∨
      (((ofStart maze start goal).run maze start goal).found = false ∧
        ∀ ds, ¬maze.Walk start ds goal) := by
  by_cases hg : start = goal
  · subst hg
    have hfound : (ofStart maze start start).found = true := decide_eq_true rfl
    rw [Search.run, dif_pos (by rw [isOver, hfound, Bool.true_or])]
    refine Or.inl ⟨hfound, _, charted_ofStart ho start, Or.inl rfl, fun ds _ => ?_⟩
    exact rank_pos ds
  · exact (survey_ofStart ho hg).run (decide_eq_false hg)

end Search

namespace Maze

variable {maze : Maze} {start goal : Position} {ds : List Direction}

/-- Between open cells the search finds the goal, and its links lead back along
a walk of least rank, or there is no walk. -/
theorem shortestRoute?_of_isOpen (hs : maze.isOpen start) (hg : maze.isOpen goal) :
    (∃ ds, ((Search.ofStart maze start goal).run maze start goal).found = true ∧
        ((Search.ofStart maze start goal).run maze start goal).route start goal = .ok ds ∧
        maze.shortestRoute? start goal = some ds ∧ maze.Walk start ds goal ∧
        ∀ es, maze.Walk start es goal → rank ds ≤ rank es) ∨
      (((Search.ofStart maze start goal).run maze start goal).found = false ∧
        maze.shortestRoute? start goal = none ∧ ∀ ds, ¬maze.Walk start ds goal) := by
  have hopen : (maze.isOpen start && maze.isOpen goal) = true := by rw [hs, hg, Bool.true_and]
  rw [shortestRoute?, if_pos hopen]
  rcases Search.run_ofStart hs goal with ⟨hf, trail, hc, hr, hleast⟩ | ⟨hf, hnone⟩
  · have hroute := hc.route hr
    refine Or.inl ⟨trail goal, hf, hroute, ?_, hc.walk goal hr, hleast⟩
    simp only [hf, if_true, hroute]
    rfl
  · refine Or.inr ⟨hf, ?_, hnone⟩
    simp only [hf, Bool.false_eq_true, if_false]

/-- From or to a cell that is not open there is no route. -/
theorem shortestRoute?_of_not_isOpen (h : ¬(maze.isOpen start ∧ maze.isOpen goal)) :
    maze.shortestRoute? start goal = none := by
  rw [← Bool.and_eq_true] at h
  rw [shortestRoute?, if_neg h]

/-- **The route is the walk of least rank.** -/
theorem least_of_shortestRoute? (h : maze.shortestRoute? start goal = some ds) :
    maze.Walk start ds goal ∧ ∀ es, maze.Walk start es goal → rank ds ≤ rank es := by
  by_cases hopen : maze.isOpen start ∧ maze.isOpen goal
  · rcases shortestRoute?_of_isOpen hopen.1 hopen.2 with ⟨es, -, -, hes, hw⟩ | ⟨-, hnone, -⟩
    · rw [hes] at h
      exact Option.some.inj h ▸ hw
    · rw [hnone] at h
      cases h
  · rw [shortestRoute?_of_not_isOpen hopen] at h
    cases h

/-- **There is a route whenever there is a walk.** -/
theorem exists_shortestRoute? (h : maze.Walk start ds goal) :
    ∃ es, maze.shortestRoute? start goal = some es := by
  rcases shortestRoute?_of_isOpen h.isOpen_first h.isOpen_last with ⟨es, -, -, hes, -⟩ | ⟨-, -, hno⟩
  · exact ⟨es, hes⟩
  · exact absurd h (hno ds)

/-- It is not longer than the walk. -/
theorem exists_shortestRoute?_le (h : maze.Walk start ds goal) :
    ∃ es, maze.shortestRoute? start goal = some es ∧ es.length ≤ ds.length := by
  obtain ⟨es, hes⟩ := exists_shortestRoute? h
  exact ⟨es, hes, length_le_of_rank_le ((least_of_shortestRoute? hes).2 ds h)⟩

/-- **Shortest routes.**  There is a route between two cells exactly when both are
open and moves through open cells lead from one to the other; it is then such a
list of moves, and no other one is shorter.  On every maze the search is over
after some number of rounds, and from a goal that was found the links lead back
to the start. -/
theorem shortestRoute?_shortest (maze : Maze) (start goal : Position) :
    ((maze.shortestRoute? start goal).isSome ↔
      maze.isOpen start ∧ maze.isOpen goal ∧ ∃ ds, maze.Walk start ds goal) ∧
    (∀ ds, maze.shortestRoute? start goal = some ds →
      maze.Walk start ds goal ∧ ∀ es, maze.Walk start es goal → ds.length ≤ es.length) ∧
    (∃ n, ((Search.step maze start goal)^[n] (Search.ofStart maze start goal)).isOver ∧
      (Search.ofStart maze start goal).run maze start goal =
        (Search.step maze start goal)^[n] (Search.ofStart maze start goal)) ∧
    (maze.isOpen start → maze.isOpen goal →
      ((Search.ofStart maze start goal).run maze start goal).found = true →
      ∃ ds, ((Search.ofStart maze start goal).run maze start goal).route start goal = .ok ds ∧
        maze.shortestRoute? start goal = some ds) := by
  refine ⟨⟨fun h => ?_, fun ⟨_, _, ds, hw⟩ => ?_⟩, fun ds h => ?_, ?_, fun hs hg hf => ?_⟩
  · obtain ⟨ds, hds⟩ := Option.isSome_iff_exists.1 h
    have hw := (least_of_shortestRoute? hds).1
    exact ⟨hw.isOpen_first, hw.isOpen_last, ds, hw⟩
  · exact Option.isSome_iff_exists.2 (exists_shortestRoute? hw)
  · obtain ⟨hw, hleast⟩ := least_of_shortestRoute? h
    exact ⟨hw, fun es hes => length_le_of_rank_le (hleast es hes)⟩
  · obtain ⟨n, hn, hover⟩ := Search.run_eq_iterate maze start goal (Search.ofStart maze start goal)
    exact ⟨n, hn ▸ hover, hn⟩
  · rcases shortestRoute?_of_isOpen hs hg with ⟨ds, -, hroute, hds, -⟩ | ⟨hf', -⟩
    · exact ⟨ds, hroute, hds⟩
    · rw [hf] at hf'
      cases hf'

/-- Two ways round a block of walls, open cells on the border, and an island in
the corner. -/
def ring : Maze := .ofRows [".....#.", ".###.##", ".###.##", ".....##"]

/-- Round the block, seven moves are the least, and the island is out of reach. -/
theorem shortestRoute?_shortest_ring :
    ring.shortestRoute? (.nearest 0 0) (.nearest 4 3) =
      some [.down, .down, .down, .right, .right, .right, .right] ∧
    (∀ es, ring.Walk (.nearest 0 0) es (.nearest 4 3) → 7 ≤ es.length) ∧
    ring.isOpen (.nearest 6 0) ∧ ¬∃ ds, ring.Walk (.nearest 0 0) ds (.nearest 6 0) := by
  have hroute : ring.shortestRoute? (.nearest 0 0) (.nearest 4 3) =
      some [.down, .down, .down, .right, .right, .right, .right] := by decide +kernel
  have hnone : ring.shortestRoute? (.nearest 0 0) (.nearest 6 0) = none := by decide +kernel
  refine ⟨hroute, ?_, by decide +kernel, fun ⟨ds, hw⟩ => ?_⟩
  · exact ((shortestRoute?_shortest ring (.nearest 0 0) (.nearest 4 3)).2.1 _ hroute).2
  · have hsome := (shortestRoute?_shortest ring (.nearest 0 0) (.nearest 6 0)).1.2
      ⟨hw.isOpen_first, hw.isOpen_last, ds, hw⟩
    rw [hnone] at hsome
    cases hsome

/-- **Of the shortest walks the route is the first.**  The route is a walk through
open cells, and it comes before every other one of its length in the
lexicographic order of the moves, `up` before `down` before `left` before
`right`. -/
theorem shortestRoute?_first (h : maze.shortestRoute? start goal = some ds) :
    maze.Walk start ds goal ∧
      ∀ es, maze.Walk start es goal → es.length = ds.length → es ≠ ds → Precedes ds es := by
  obtain ⟨hw, hleast⟩ := least_of_shortestRoute? h
  refine ⟨hw, fun es hes hlength hne => ?_⟩
  exact (precedes_of_rank_le hlength.symm (hleast es hes)).resolve_left hne

/-- A room without walls, where six walks lead from corner to corner. -/
def room : Maze := .ofRows ["...", "...", "..."]

/-- Of the six walks across the room, the one that goes down first comes before
the one that goes down and right in turn. -/
theorem shortestRoute?_first_room :
    room.shortestRoute? (.nearest 0 0) (.nearest 2 2) = some [.down, .down, .right, .right] ∧
    (∀ es, room.Walk (.nearest 0 0) es (.nearest 2 2) → es.length = 4 →
      es ≠ [.down, .down, .right, .right] → Precedes [.down, .down, .right, .right] es) ∧
    Precedes [.down, .down, .right, .right] [.down, .right, .down, .right] := by
  have hroute : room.shortestRoute? (.nearest 0 0) (.nearest 2 2) =
      some [.down, .down, .right, .right] := by decide +kernel
  obtain ⟨-, hfirst⟩ := shortestRoute?_first hroute
  have hwalk : room.Walk (.nearest 0 0) [.down, .right, .down, .right] (.nearest 2 2) :=
    .go (q := .nearest 0 1) (by decide) ⟨rfl, rfl⟩ <|
    .go (q := .nearest 1 1) (by decide) ⟨rfl, rfl⟩ <|
    .go (q := .nearest 1 2) (by decide) ⟨rfl, rfl⟩ <|
    .go (q := .nearest 2 2) (by decide) ⟨rfl, rfl⟩ <| .stay (by decide)
  exact ⟨hroute, hfirst, hfirst _ hwalk rfl (by decide)⟩

end Maze

end Labyrinth
