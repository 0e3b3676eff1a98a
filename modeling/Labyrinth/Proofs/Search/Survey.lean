/-
# What a search knows

The cells that a search reached make a tree: following the links from a cell
gives one list of moves, its trail, and the trail is a walk from the start
(`Search.Charted`).  A search goes through the moves out of the reached cells in
the order of rank, so at every moment there is a number up to which all of them
have been tried.  While the cell `p` is in hand and its first `n` directions
have been tried, that number is `4 * rank (trail p) + n`; every cell still in
the queue has only moves beyond it, and every other cell only moves before it
(`Search.Underway`).

From this, every walk that is not at least that far on already has its end among
the reached cells (`Search.Underway.least`), so the goal is found by the walk of
least rank.
-/

import Labyrinth.Route
import Labyrinth.Proofs.Walk
import Labyrinth.Proofs.Search.Rank
import Mathlib.Logic.Function.Basic

namespace Labyrinth
namespace Search

/-- The search came to a cell. -/
def Reached (start : Position) (s : Search) (p : Position) : Prop :=
  p = start ∨ (s.link? p).isSome

/-- **The links tell walks.**  The trail of a reached cell is a walk from the
start, its last move is the one that the link names, and it has no more moves
than there are links. -/
structure Charted (maze : Maze) (start : Position) (trail : Position → List Direction)
    (s : Search) : Prop where
  inside : ∀ p, maze.isOpen p → s.links.get? p ≠ none
  trail_start : trail start = []
  trail_link : ∀ p l, s.link? p = some l →
    p ≠ start ∧ s.Reached start l.origin ∧ trail p = trail l.origin ++ [l.direction]
  walk : ∀ p, s.Reached start p → maze.Walk start (trail p) p
  length_le : ∀ p, s.Reached start p → (trail p).length ≤ s.linked

/-- **The cell `p` is in hand, and the directions before the `n`-th were
tried.**  Queued cells come after `p` in the order of rank, and nothing that the
search met is beyond the move whose turn it is. -/
structure Underway (maze : Maze) (start goal : Position) (trail : Position → List Direction)
    (p : Position) (n : Nat) (s : Search) : Prop where
  charted : s.Charted maze start trail
  turn : n ≤ 4
  missed : ¬s.Reached start goal
  in_hand : s.Reached start p
  queued : ∀ q ∈ s.queue, s.Reached start q ∧ rank (trail p) < rank (trail q)
  sorted : s.queue.Pairwise fun q r => rank (trail q) < rank (trail r)
  settled : ∀ q, s.Reached start q → q ∈ s.queue ∨ rank (trail q) ≤ rank (trail p)
  below : ∀ q, s.Reached start q → rank (trail q) < 4 * rank (trail p) + n
  tried : ∀ q d r, s.Reached start q → q ∉ s.queue → (q = p → d.index < n) → q.Leads d r →
    maze.isOpen r → s.Reached start r ∧ rank (trail r) ≤ 4 * rank (trail q) + d.index

/-- What holds between two rounds: the next cell can be taken in hand, or no cell
waits and the reached cells are closed under moves. -/
def Survey (maze : Maze) (start goal : Position) (trail : Position → List Direction) :
    Search → Prop
  | ⟨links, [], found⟩ =>
    Charted maze start trail ⟨links, [], found⟩ ∧
    ¬Reached start ⟨links, [], found⟩ goal ∧
    ∀ q d r, Reached start ⟨links, [], found⟩ q → q.Leads d r → maze.isOpen r →
      Reached start ⟨links, [], found⟩ r
  | ⟨links, p :: queue, found⟩ => Underway maze start goal trail p 0 ⟨links, queue, found⟩

/-- The goal was reached, and by a walk of least rank. -/
def Arrived (maze : Maze) (start goal : Position) (trail : Position → List Direction)
    (s : Search) : Prop :=
  s.Charted maze start trail ∧ s.Reached start goal ∧
    ∀ ds, maze.Walk start ds goal → rank (trail goal) ≤ rank ds

variable {maze : Maze} {start goal p q : Position} {trail : Position → List Direction}
variable {s : Search} {l : Link} {d : Direction} {n : Nat}

/-! ## One more link -/

/-- A new link is found at its cell, and all others where they were. -/
theorem link?_addLink (h : s.links.get? q = some none) (r : Position) :
    (s.addLink q l).link? r = if r = q then some l else s.link? r := by
  rw [link?, addLink, Grid.get?_modify, h]
  split <;> rfl

/-- It is one link more. -/
theorem linked_addLink (h : s.links.get? q = some none) :
    (s.addLink q l).linked = s.linked + 1 := by
  have := Grid.count_modify h (fun _ => some l) Option.isSome
  simpa [linked, addLink] using this

/-- Its cell is reached, and no other one. -/
theorem reached_addLink (h : s.links.get? q = some none) (r : Position) :
    (s.addLink q l).Reached start r ↔ r = q ∨ s.Reached start r := by
  rw [Reached, Reached, link?_addLink h]
  by_cases hr : r = q <;> simp [hr]

/-- A new cell was not reached. -/
theorem IsNew.not_reached (h : s.IsNew maze start q) : ¬s.Reached start q := by
  obtain ⟨hne, hnone, -⟩ := h
  simp [Reached, link?, hne, hnone]

/-- An open cell that is not new was reached before. -/
theorem Charted.reached_of_not_isNew (h : s.Charted maze start trail) (ho : maze.isOpen q)
    (hq : ¬s.IsNew maze start q) : s.Reached start q := by
  have hin := h.inside q ho
  by_cases hs : q = start
  · exact Or.inl hs
  · refine Or.inr ?_
    rw [link?]
    cases hl : s.links.get? q with
    | none => exact absurd hl hin
    | some l? =>
      cases l? with
      | none => exact absurd ⟨hs, hl, ho⟩ hq
      | some l => rfl

/-- A move to a new cell is exact. -/
theorem IsNew.leads (h : s.IsNew maze start (p.move d)) (hp : s.Reached start p) :
    p.Leads d (p.move d) :=
  Position.leads_move fun he => h.not_reached (he.symm ▸ hp)

/-- The trails with one more cell: it is one move further on than `p`. -/
def onward (trail : Position → List Direction) (p : Position) (d : Direction) :
    Position → List Direction :=
  Function.update trail (p.move d) (trail p ++ [d])

/-- The trail to the new cell goes one move on. -/
theorem onward_self : onward trail p d (p.move d) = trail p ++ [d] := by
  rw [onward, Function.update_self]

/-- The trails to the cells reached before stay as they are. -/
theorem onward_of_reached (h : s.IsNew maze start (p.move d)) (hq : s.Reached start q) :
    onward trail p d q = trail q :=
  Function.update_of_ne (fun he : q = p.move d => h.not_reached (he ▸ hq)) _ _

/-- **A link to a new cell keeps the chart.** -/
theorem Charted.addLink (h : s.Charted maze start trail) (hp : s.Reached start p)
    (hn : s.IsNew maze start (p.move d)) :
    (s.addLink (p.move d) ⟨p, d⟩).Charted maze start (onward trail p d) := by
  have hnew : s.links.get? (p.move d) = some none := hn.2.1
  have hold : ∀ q, s.Reached start q → onward trail p d q = trail q :=
    fun q hq => onward_of_reached hn hq
  refine ⟨fun q hq => ?_, ?_, fun q l hl => ?_, fun q hq => ?_, fun q hq => ?_⟩
  · rw [Search.addLink, Grid.get?_modify]
    split
    · simp [hnew]
    · exact h.inside q hq
  · rw [hold start (Or.inl rfl), h.trail_start]
  · rw [link?_addLink hnew] at hl
    rw [reached_addLink hnew]
    split at hl
    · rename_i he
      obtain rfl := Option.some.inj hl
      exact ⟨he ▸ hn.1, Or.inr hp, by rw [he, onward_self, hold p hp]⟩
    · obtain ⟨hs, hr, ht⟩ := h.trail_link q l hl
      exact ⟨hs, Or.inr hr, by rw [hold q (Or.inr (by simp [hl])), hold _ hr, ht]⟩
  · rcases (reached_addLink hnew q).1 hq with rfl | hq
    · rw [onward_self]
      exact (h.walk p hp).snoc (hn.leads hp) hn.2.2
    · rw [hold q hq]
      exact h.walk q hq
  · rw [linked_addLink hnew]
    rcases (reached_addLink hnew q).1 hq with rfl | hq
    · have := h.length_le p hp
      rw [onward_self, List.length_append, List.length_singleton]
      omega
    · have := h.length_le q hq
      rw [hold q hq]
      omega

/-- What links tell does not depend on the queue. -/
theorem Charted.of_links {s' : Search} (h : s.Charted maze start trail)
    (he : s'.links = s.links) : s'.Charted maze start trail := by
  obtain ⟨links, queue, found⟩ := s
  obtain ⟨links', queue', found'⟩ := s'
  obtain rfl : links' = links := he
  exact ⟨h.inside, h.trail_start, h.trail_link, h.walk, h.length_le⟩

/-! ## One direction -/

namespace Underway

/-- **Every walk is known or still ahead.**  A walk of smaller rank than the move
whose turn it is ends in a reached cell, and the trail of that cell is not
behind the walk. -/
theorem least (h : s.Underway maze start goal trail p n) {ds : List Direction}
    (hw : maze.Walk start ds q) :
    (s.Reached start q ∧ rank (trail q) ≤ rank ds) ∨ 4 * rank (trail p) + n ≤ rank ds := by
  induction ds using List.reverseRecOn generalizing q with
  | nil =>
    cases hw
    exact Or.inl ⟨Or.inl rfl, Nat.le_of_eq (by rw [h.charted.trail_start])⟩
  | append_singleton ds d ih =>
    obtain ⟨r, hr, hl, ho⟩ := hw.of_snoc
    rw [rank_snoc]
    rcases ih hr with ⟨hr, hle⟩ | hle
    · by_cases hq : r ∈ s.queue
      · have := (h.queued r hq).2
        have := h.turn
        right
        omega
      · by_cases hd : r = p → d.index < n
        · obtain ⟨hreach, hrank⟩ := h.tried r d q hr hq hd hl ho
          left
          exact ⟨hreach, by omega⟩
        · obtain ⟨rfl, hd⟩ := Classical.not_imp.1 hd
          right
          omega
    · right
      omega

/-- A direction that leads to no new cell has been tried. -/
theorem skip (h : s.Underway maze start goal trail p n) (hd : d.index = n) (hn : n < 4)
    (hnew : ¬s.IsNew maze start (p.move d)) : s.Underway maze start goal trail p (n + 1) := by
  refine { h with turn := hn, below := fun q hq => ?_, tried := fun q e r hq hw he hl ho => ?_ }
  · have := h.below q hq
    omega
  · by_cases hlt : q = p → e.index < n
    · exact h.tried q e r hq hw hlt hl ho
    · obtain ⟨rfl, hge⟩ := Classical.not_imp.1 hlt
      have hlt := he rfl
      obtain rfl : e = d := Direction.index_inj (by omega)
      rw [hl.move_eq] at hnew
      have hr := h.charted.reached_of_not_isNew ho hnew
      have := h.below r hr
      exact ⟨hr, by omega⟩

/-- A new cell takes its place at the end of the queue. -/
theorem enqueue (h : s.Underway maze start goal trail p n) (hd : d.index = n) (hn : n < 4)
    (hnew : s.IsNew maze start (p.move d)) (hg : p.move d ≠ goal) :
    { s.addLink (p.move d) ⟨p, d⟩ with queue := s.queue ++ [p.move d] }.Underway maze start goal
      (onward trail p d) p (n + 1) := by
  have hnone : s.links.get? (p.move d) = some none := hnew.2.1
  have hold : ∀ q, s.Reached start q → onward trail p d q = trail q :=
    fun q hq => onward_of_reached hnew hq
  have hself : rank (onward trail p d (p.move d)) = 4 * rank (trail p) + n := by
    rw [onward_self, rank_snoc, hd]
  have hcases : ∀ q, (s.addLink (p.move d) ⟨p, d⟩).Reached start q →
      q = p.move d ∨ s.Reached start q :=
    fun q => (reached_addLink hnone q).1
  have hkeep : ∀ q, s.Reached start q → (s.addLink (p.move d) ⟨p, d⟩).Reached start q :=
    fun q hq => (reached_addLink hnone q).2 (Or.inr hq)
  have hp := h.in_hand
  have hpos := rank_pos (trail p)
  refine ⟨(h.charted.addLink hp hnew).of_links rfl, hn, fun hr => ?_, hkeep p hp,
    ?_, ?_, ?_, ?_, ?_⟩
  · rcases hcases goal hr with he | hr
    · exact hg he.symm
    · exact h.missed hr
  · intro q hq
    rw [hold p hp]
    rcases List.mem_append.1 hq with hq | hq
    · obtain ⟨hr, hlt⟩ := h.queued q hq
      exact ⟨hkeep q hr, by rwa [hold q hr]⟩
    · obtain rfl := List.mem_singleton.1 hq
      exact ⟨(reached_addLink hnone _).2 (Or.inl rfl), by omega⟩
  · refine List.pairwise_append.2 ⟨?_, List.pairwise_singleton .., fun q hq r hr => ?_⟩
    · refine h.sorted.imp_of_mem fun hq hr hlt => ?_
      rwa [hold _ (h.queued _ hq).1, hold _ (h.queued _ hr).1]
    · obtain rfl := List.mem_singleton.1 hr
      have hq := (h.queued q hq).1
      rw [hold q hq, hself]
      exact h.below q hq
  · intro q hq
    rcases hcases q hq with rfl | hq
    · exact Or.inl (List.mem_append_right _ (List.mem_singleton.2 rfl))
    · rw [hold q hq, hold p hp]
      exact (h.settled q hq).imp (List.mem_append_left _) id
  · intro q hq
    rw [hold p hp]
    rcases hcases q hq with rfl | hq
    · omega
    · have := h.below q hq
      rw [hold q hq]
      omega
  · intro q e r hq hw he hl ho
    have hne : q ≠ p.move d := fun he => hw (List.mem_append_right _ (List.mem_singleton.2 he))
    have hq : s.Reached start q := (hcases q hq).resolve_left hne
    rw [hold q hq]
    by_cases hlt : q = p → e.index < n
    · obtain ⟨hr, hle⟩ := h.tried q e r hq (fun hm => hw (List.mem_append_left _ hm)) hlt hl ho
      exact ⟨hkeep r hr, by rwa [hold r hr]⟩
    · obtain ⟨rfl, hge⟩ := Classical.not_imp.1 hlt
      have hlt := he rfl
      obtain rfl : e = d := Direction.index_inj (by omega)
      rw [← hl.move_eq, hself, hd]
      exact ⟨(reached_addLink hnone _).2 (Or.inl rfl), Nat.le_refl _⟩

/-- The search comes upon the goal by a walk of least rank. -/
theorem arrive (h : s.Underway maze start goal trail p n) (hd : d.index = n)
    (hnew : s.IsNew maze start (p.move d)) (hg : p.move d = goal) :
    Arrived maze start goal (onward trail p d)
      { s.addLink (p.move d) ⟨p, d⟩ with found := true } := by
  refine ⟨(h.charted.addLink h.in_hand hnew).of_links rfl,
    (reached_addLink hnew.2.1 goal).2 (Or.inl hg.symm), fun ds hw => ?_⟩
  rw [← hg, onward_self, rank_snoc, hd]
  rcases h.least hw with ⟨hr, -⟩ | hle
  · exact absurd hr h.missed
  · exact hle

/-- When all four directions were tried, the round is over. -/
theorem survey (h : s.Underway maze start goal trail p 4) : s.Survey maze start goal trail := by
  obtain ⟨links, queue, found⟩ := s
  cases queue with
  | nil =>
    refine ⟨h.charted, h.missed, fun q d r hq hl ho => ?_⟩
    exact (h.tried q d r hq List.not_mem_nil (fun _ => d.index_lt) hl ho).1
  | cons p' queue =>
    have hs := List.pairwise_cons.1 h.sorted
    have hp' := h.queued p' List.mem_cons_self
    refine ⟨h.charted.of_links rfl, by omega, h.missed, hp'.1, fun q hq => ?_, hs.2, fun q hq => ?_,
      fun q hq => ?_, fun q d r hq hw he hl ho => ?_⟩
    · exact ⟨(h.queued q (List.mem_cons_of_mem _ hq)).1, hs.1 q hq⟩
    · rcases h.settled q hq with hm | hle
      · rcases List.mem_cons.1 hm with rfl | hm
        · exact Or.inr (Nat.le_refl _)
        · exact Or.inl hm
      · exact Or.inr (by omega)
    · have hlt := h.below q hq
      have hlt' := hp'.2
      show rank (trail q) < 4 * rank (trail p') + 0
      omega
    · have hne : q ≠ p' := fun hqp => absurd (he hqp) (by omega)
      have hwaits : q ∉ p' :: queue := fun hm => (List.mem_cons.1 hm).elim hne hw
      exact h.tried q d r hq hwaits (fun _ => d.index_lt) hl ho

end Underway

/-! ## Rounds -/

/-- **A round keeps the survey, or it comes upon the goal.** -/
theorem Underway.tryMoves (h : s.Underway maze start goal trail p n) (hf : s.found = false)
    {ds : List Direction} (hds : ds = Direction.all.toList.drop n) :
    ∃ trail, ((tryMoves maze start goal p ds s).found = false ∧
        (tryMoves maze start goal p ds s).Survey maze start goal trail) ∨
      ((tryMoves maze start goal p ds s).found = true ∧
        Arrived maze start goal trail (tryMoves maze start goal p ds s)) := by
  induction ds generalizing trail n s with
  | nil =>
    have hlen := congrArg List.length hds
    simp only [List.length_nil, List.length_drop, Vector.length_toList] at hlen
    obtain rfl : n = 4 := by have := h.turn; omega
    exact ⟨trail, Or.inl ⟨hf, h.survey⟩⟩
  | cons d ds ih =>
    obtain ⟨hd, hn, hds⟩ := Direction.all_drop hds
    rw [Search.tryMoves]
    split
    · rename_i hnew
      split
      · rename_i hg
        exact ⟨_, Or.inr ⟨rfl, h.arrive hd hnew hg⟩⟩
      · rename_i hg
        exact ih (h.enqueue hd hn hnew hg) hf hds
    · rename_i hnew
      exact ih (h.skip hd hn hnew) hf hds

/-- A search starts without links. -/
theorem link?_ofStart (maze : Maze) (start goal p : Position) :
    (ofStart maze start goal).link? p = none := by
  rw [link?, ofStart, Grid.get?_map]
  cases maze.get? p <;> rfl

/-- So only the start is reached. -/
theorem reached_ofStart {goal : Position} (hp : (ofStart maze start goal).Reached start p) :
    p = start := by
  simpa [Reached, link?_ofStart] using hp

/-- The trail to it is empty. -/
theorem charted_ofStart (ho : maze.isOpen start) (goal : Position) :
    (ofStart maze start goal).Charted maze start fun _ => [] := by
  refine ⟨fun p hp => ?_, rfl, fun p l hl => ?_, fun p hp => ?_, fun p _ => Nat.zero_le _⟩
  · rw [ofStart, Grid.get?_map]
    intro hm
    rw [Maze.isOpen, Option.map_eq_none_iff.1 hm] at hp
    exact Bool.false_ne_true hp
  · rw [link?_ofStart] at hl
    cases hl
  · rw [reached_ofStart hp]
    exact Maze.Walk.stay ho

/-- A search begins with the start in hand. -/
theorem survey_ofStart (ho : maze.isOpen start) (hne : start ≠ goal) :
    (ofStart maze start goal).Survey maze start goal fun _ => [] := by
  have hstart : ∀ q, (ofStart maze start goal).Reached start q → q = start :=
    fun q hq => reached_ofStart hq
  refine ⟨(charted_ofStart ho goal).of_links rfl, Nat.zero_le _,
    fun hg => hne (hstart goal hg).symm,
    Or.inl rfl, fun q hq => absurd hq List.not_mem_nil, List.Pairwise.nil,
    fun q _ => Or.inr (Nat.le_refl _), fun q _ => ?_, fun q d r hq _ hd => ?_⟩
  · rw [rank_nil]
    omega
  · exact absurd (hd (hstart q hq)) (Nat.not_lt_zero _)

/-- Reached cells that are closed under moves hold every walk that begins among
them. -/
theorem reached_of_walk {a b : Position} {ds : List Direction}
    (hclosed : ∀ q d r, s.Reached start q → q.Leads d r → maze.isOpen r → s.Reached start r)
    (hw : maze.Walk a ds b) (ha : s.Reached start a) : s.Reached start b := by
  induction hw with
  | stay _ => exact ha
  | go _ hl hw ih => exact ih (hclosed _ _ _ ha hl hw.isOpen_first)

/-- **A search that runs to its end finds the goal by a walk of least rank, or
there is no walk to the goal.** -/
theorem Survey.run (h : s.Survey maze start goal trail) (hf : s.found = false) :
    ((s.run maze start goal).found = true ∧
        ∃ trail, Arrived maze start goal trail (s.run maze start goal)) ∨
      ((s.run maze start goal).found = false ∧ ∀ ds, ¬maze.Walk start ds goal) := by
  induction s using Search.run.induct maze start goal generalizing trail with
  | case1 s hover =>
    rw [Search.run, dif_pos hover]
    obtain ⟨links, queue, found⟩ := s
    obtain rfl : found = false := hf
    obtain rfl : queue = [] := by simpa [isOver] using hover
    obtain ⟨-, hmissed, hclosed⟩ := h
    exact Or.inr ⟨rfl, fun ds hw => hmissed (reached_of_walk hclosed hw (Or.inl rfl))⟩
  | case2 s hover ih =>
    rw [Search.run, dif_neg hover]
    obtain ⟨links, queue, found⟩ := s
    cases queue with
    | nil => simp [isOver] at hover
    | cons p queue =>
      have hall : Direction.all.toList = Direction.all.toList.drop 0 := rfl
      obtain ⟨trail, ⟨hf', hs'⟩ | ⟨hf', ha⟩⟩ := Underway.tryMoves h hf hall
      · exact ih hs' hf'
      · rw [Search.run, dif_pos (by rw [isOver, step, hf', Bool.true_or])]
        exact Or.inl ⟨hf', trail, ha⟩

end Search
end Labyrinth
