/-
# Perfect mazes

A maze is perfect if between any two of its open cells there is exactly one walk
that comes through no cell twice.  Perfect mazes grow by leaves: opening a wall
that has exactly one open neighbour keeps a maze perfect
(`Maze.IsPerfect.of_leaf`).  A walk that repeats no cell can end in the leaf or
begin there, but it cannot come through, because it would have to leave by the
neighbour that it came from.
-/

import Labyrinth.Proofs.Walk
import Mathlib.Logic.ExistsUnique

namespace Labyrinth
namespace Maze

/-- The moves lead from one cell to another, through open cells only, and through
none of them twice. -/
def SimpleWalk (m : Maze) (a : Position) (ds : List Direction) (b : Position) : Prop :=
  m.Walk a ds b ∧ (a.path ds).Nodup

/-- Between any two open cells there is exactly one way. -/
def IsPerfect (m : Maze) : Prop :=
  ∀ a b, m.isOpen a → m.isOpen b → ∃! ds, m.SimpleWalk a ds b

variable {m m' : Maze} {a b p q : Position} {d : Direction} {ds : List Direction}

/-- A simple walk is simple in the other direction. -/
theorem SimpleWalk.back (h : m.SimpleWalk a ds b) : m.SimpleWalk b (turned ds) a := by
  refine ⟨h.1.back, ?_⟩
  rw [h.1.path_back]
  exact (List.reverse_perm _).nodup_iff.2 h.2

/-- So there is one simple walk there if there is one back. -/
theorem existsUnique_simpleWalk_back (h : ∃! ds, m.SimpleWalk a ds b) :
    ∃! ds, m.SimpleWalk b ds a := by
  obtain ⟨ds, hds, hunique⟩ := h
  refine ⟨turned ds, hds.back, fun es hes => ?_⟩
  rw [← hunique _ hes.back, turned_turned]

/-- A walk that repeats no cell goes nowhere if it comes back to where it began. -/
theorem SimpleWalk.eq_nil (h : m.SimpleWalk a ds a) : ds = [] := by
  obtain ⟨hw, hn⟩ := h
  cases hw with
  | stay _ => rfl
  | go _ hl hw =>
    rw [Position.path, hl.move_eq] at hn
    exact absurd hw.last_mem_path (List.nodup_cons.1 hn).1

/-- Standing still on an open cell is a simple walk. -/
theorem simpleWalk_nil (h : m.isOpen a) : m.SimpleWalk a [] a :=
  ⟨Walk.stay h, List.nodup_cons.2 ⟨List.not_mem_nil, List.nodup_nil⟩⟩

/-! ## Leaves -/

/-- `m'` has one open cell more than `m`: a cell next to `p` whose other
neighbours are walls. -/
structure Leaf (m m' : Maze) (p : Position) (d : Direction) (q : Position) : Prop where
  isOpen_stem : m.isOpen p
  leads : p.Leads d q
  not_isOpen : ¬m.isOpen q
  stem_eq : ∀ r e, m.isOpen r → r.Leads e q → r = p
  isOpen_iff : ∀ r, m'.isOpen r ↔ r = q ∨ m.isOpen r

namespace Leaf

/-- A new leaf blocks no walk. -/
theorem mono (h : Leaf m m' p d q) (hw : m.Walk a ds b) : m'.Walk a ds b :=
  hw.mono fun r hr => (h.isOpen_iff r).2 (Or.inr hr)

/-- A walk that repeats no cell does not come through a leaf. -/
theorem walk (h : Leaf m m' p d q) (hw : m'.Walk a ds b) (hn : (a.path ds).Nodup) (ha : a ≠ q)
    (hb : b ≠ q) : m.Walk a ds b := by
  induction hw with
  | stay ho => exact Walk.stay (((h.isOpen_iff _).1 ho).resolve_left ha)
  | @go a c b d ds ho hl hw ih =>
    rw [Position.path, hl.move_eq] at hn
    obtain ⟨hmem, hn⟩ := List.nodup_cons.1 hn
    have ho := ((h.isOpen_iff a).1 ho).resolve_left ha
    by_cases hc : c = q
    · subst hc
      cases hw with
      | stay _ => exact absurd rfl hb
      | @go _ r _ e es _ hl' hw =>
        have hr := ((h.isOpen_iff r).1 hw.isOpen_first).resolve_left hl'.ne
        have hra : r = a := (h.stem_eq r _ hr hl'.back).trans (h.stem_eq a d ho hl).symm
        rw [Position.path, hl'.move_eq, hra] at hmem
        exact absurd (List.mem_cons_of_mem _ (Position.mem_path_self ..)) hmem
    · exact Walk.go ho hl (ih hn hc hb)

/-- From a leaf there is only the way to its stem. -/
theorem simpleWalk_iff (h : Leaf m m' p d q) (hb : b ≠ q) :
    m'.SimpleWalk q ds b ↔ ∃ es, ds = d.opposite :: es ∧ m.SimpleWalk p es b := by
  constructor
  · rintro ⟨hw, hn⟩
    cases hw with
    | stay _ => exact absurd rfl hb
    | @go _ c _ e es _ hl hw =>
      rw [Position.path, hl.move_eq] at hn
      have hn := (List.nodup_cons.1 hn).2
      have hc := ((h.isOpen_iff c).1 hw.isOpen_first).resolve_left hl.ne
      obtain rfl := h.stem_eq c _ hc hl.back
      obtain rfl := hl.direction_eq h.leads.back
      exact ⟨es, rfl, h.walk hw hn hl.ne hb, hn⟩
  · rintro ⟨es, rfl, hw, hn⟩
    refine ⟨Walk.go ((h.isOpen_iff q).2 (Or.inl rfl)) h.leads.back (h.mono hw), ?_⟩
    rw [Position.path, h.leads.back.move_eq]
    exact List.nodup_cons.2 ⟨fun hq => h.not_isOpen (hw.isOpen_of_mem_path hq), hn⟩

/-- From a new leaf there is one simple walk to each cell: into the perfect maze that it
hangs on, and on from there. -/
theorem existsUnique_simpleWalk (h : Leaf m m' p d q) (hm : m.IsPerfect) (hb : m.isOpen b) :
    ∃! ds, m'.SimpleWalk q ds b := by
  have hbq : b ≠ q := fun he => h.not_isOpen (he ▸ hb)
  obtain ⟨ds, hds, hunique⟩ := hm p b h.isOpen_stem hb
  refine ⟨d.opposite :: ds, (h.simpleWalk_iff hbq).2 ⟨ds, rfl, hds⟩, fun es hes => ?_⟩
  obtain ⟨rest, rfl, hrest⟩ := (h.simpleWalk_iff hbq).1 hes
  rw [hunique rest hrest]

end Leaf

/-- **A leaf keeps a maze perfect.** -/
theorem IsPerfect.of_leaf (hm : m.IsPerfect) (h : Leaf m m' p d q) : m'.IsPerfect := by
  intro a b ha hb
  rcases (h.isOpen_iff a).1 ha with rfl | ha' <;> rcases (h.isOpen_iff b).1 hb with rfl | hb'
  · exact ⟨[], simpleWalk_nil ha, fun ds hds => hds.eq_nil⟩
  · exact h.existsUnique_simpleWalk hm hb'
  · exact existsUnique_simpleWalk_back (h.existsUnique_simpleWalk hm ha')
  · have haq : a ≠ q := fun he => h.not_isOpen (he ▸ ha')
    have hbq : b ≠ q := fun he => h.not_isOpen (he ▸ hb')
    obtain ⟨ds, ⟨hw, hn⟩, hunique⟩ := hm a b ha' hb'
    exact ⟨ds, ⟨h.mono hw, hn⟩, fun es hes => hunique es ⟨h.walk hes.1 hes.2 haq hbq, hes.2⟩⟩

/-- A maze with one open cell is perfect. -/
theorem isPerfect_of_isOpen_iff_eq (h : ∀ r, m.isOpen r ↔ r = p) : m.IsPerfect := by
  intro a b ha hb
  obtain rfl := (h a).1 ha
  obtain rfl := (h b).1 hb
  exact ⟨[], simpleWalk_nil ha, fun ds hds => hds.eq_nil⟩

end Maze
end Labyrinth
