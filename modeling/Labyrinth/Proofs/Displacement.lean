/-
# Displacements at the limits of the coordinates

A displacement is computed in two stages, first how far each coordinate moves and
then where that leads, and each stage keeps to the range of coordinates by itself.
It should come to the same as one sum without limits (`Position.IsExact`): a result
wherever the end is a position, and a stop at the limit that the end lies behind.

The first stage nearly always keeps out of the way, since a coordinate times a move
of one cell is a coordinate again (`Direction.isCoordinate_shift_iff`).  The
exception is the lowest coordinate taken against an axis.  The range has one number
more below zero than above, so that shift is one too long, and from a negative
coordinate its end is a position all the same (`Position.FallsShort`).  There the
result is missing, or one cell short, and everywhere else the displacement is exact
(`Position.isExact_iff`).
-/

import Labyrinth.Position

namespace Labyrinth

/-- **The shift that is no coordinate.**  Of all distances only the lowest one leaves
the range, and only against an axis. -/
theorem Direction.isCoordinate_shift_iff (d : Direction) {k : Int} (hk : IsCoordinate k) :
    (IsCoordinate (d.dx * k) ∧ IsCoordinate (d.dy * k)) ↔
      ¬(k = -2147483648 ∧ (d = .left ∨ d = .up)) := by
  cases d <;> simp [Direction.dx, Direction.dy] <;> omega

namespace Position

variable {p q : Position} {d : Direction} {k x y : Int}

/-- The position at a point has its coordinates. -/
theorem ofInts?_eq_some_iff : ofInts? x y = some q ↔ q.x = x ∧ q.y = y := by
  unfold ofInts?
  constructor
  · intro h
    split at h
    · obtain rfl := Option.some.inj h
      exact ⟨rfl, rfl⟩
    · cases h
  · rintro ⟨rfl, rfl⟩
    rw [dif_pos ⟨q.isCoordinate_x, q.isCoordinate_y⟩]

/-- There is none exactly if a coordinate leaves the range. -/
theorem ofInts?_eq_none_iff : ofInts? x y = none ↔ ¬(IsCoordinate x ∧ IsCoordinate y) := by
  unfold ofInts?
  split <;> simp_all

/-! ## Without limits -/

/-- `k` moves in direction `d` lead from `p` exactly to `q`. -/
def Reaches (p : Position) (d : Direction) (k : Int) (q : Position) : Prop :=
  q.x = p.x + d.dx * k ∧ q.y = p.y + d.dy * k

/-- What is reached lies within the range. -/
theorem Reaches.isCoordinate (h : p.Reaches d k q) :
    IsCoordinate (p.x + d.dx * k) ∧ IsCoordinate (p.y + d.dy * k) :=
  ⟨h.1 ▸ q.isCoordinate_x, h.2 ▸ q.isCoordinate_y⟩

/-- The displacement comes to the sum without limits: it has the position there for
its result, if there is one, and stops at the limits otherwise. -/
structure IsExact (p : Position) (d : Direction) (k : Int) : Prop where
  offset?_eq_some_iff : ∀ q, p.offset? d k = some q ↔ p.Reaches d k q
  x_offset : (p.offset d k).x = clamp (p.x + d.dx * k)
  y_offset : (p.offset d k).y = clamp (p.y + d.dy * k)

/-- The lowest coordinate is taken against an axis, and its end is a position all the
same. -/
def FallsShort (p : Position) (d : Direction) (k : Int) : Prop :=
  k = -2147483648 ∧ (d = .left ∧ p.x < 0 ∨ d = .up ∧ p.y < 0)

/-- Whether a displacement falls short can be computed. -/
instance (p : Position) (d : Direction) (k : Int) : Decidable (p.FallsShort d k) :=
  inferInstanceAs (Decidable (_ ∧ _))

/-! ## Shifts in the range -/

/-- A shift within the range leaves only the sum to check. -/
theorem offset?_of_isCoordinate (h : IsCoordinate (d.dx * k) ∧ IsCoordinate (d.dy * k)) :
    p.offset? d k = ofInts? (p.x + d.dx * k) (p.y + d.dy * k) := by
  have hshift : ofInts? (d.dx * k) (d.dy * k) = some ⟨d.dx * k, d.dy * k, h.1, h.2⟩ :=
    ofInts?_eq_some_iff.2 ⟨rfl, rfl⟩
  unfold offset?
  rw [hshift]
  rfl

/-- A shift within the range leaves only the sum to clamp. -/
theorem offset_of_isCoordinate (h : IsCoordinate (d.dx * k) ∧ IsCoordinate (d.dy * k)) :
    p.offset d k = nearest (p.x + d.dx * k) (p.y + d.dy * k) := by
  unfold offset
  simp only [nearest, clamp_eq_self h.1, clamp_eq_self h.2]

/-- So an offset goes exactly where the moves lead. -/
theorem Reaches.offset_eq (h : p.Reaches d k q)
    (hshift : IsCoordinate (d.dx * k) ∧ IsCoordinate (d.dy * k)) : p.offset d k = q := by
  rw [offset_of_isCoordinate hshift, ← h.1, ← h.2, Position.ext_iff]
  exact ⟨clamp_eq_self q.isCoordinate_x, clamp_eq_self q.isCoordinate_y⟩

/-- **A displacement with a shift within the range is exact.** -/
theorem isExact_of_isCoordinate (h : IsCoordinate (d.dx * k) ∧ IsCoordinate (d.dy * k)) :
    p.IsExact d k := by
  constructor
  · intro q
    rw [offset?_of_isCoordinate h, ofInts?_eq_some_iff, Reaches]
  · rw [offset_of_isCoordinate h, nearest]
  · rw [offset_of_isCoordinate h, nearest]

/-! ## The shift that is too long -/

/-- A shift that leaves the range has no result, wherever the sum would lie. -/
theorem offset?_of_not_isCoordinate
    (h : ¬(IsCoordinate (d.dx * k) ∧ IsCoordinate (d.dy * k))) : p.offset? d k = none := by
  unfold offset?
  rw [ofInts?_eq_none_iff.2 h]
  rfl

/-- From a coordinate that is not negative it leads out of the range, cut or not. -/
theorem isExact_of_not_isCoordinate (hk : IsCoordinate k)
    (h : ¬(IsCoordinate (d.dx * k) ∧ IsCoordinate (d.dy * k))) (hp : ¬p.FallsShort d k) :
    p.IsExact d k := by
  have hnone : p.offset? d k = none := offset?_of_not_isCoordinate h
  have hpx := p.isCoordinate_x
  have hpy := p.isCoordinate_y
  rw [d.isCoordinate_shift_iff hk, Decidable.not_not] at h
  obtain ⟨rfl, hd⟩ := h
  have hend : ¬(IsCoordinate (p.x + d.dx * -2147483648) ∧
      IsCoordinate (p.y + d.dy * -2147483648)) := by
    rcases hd with rfl | rfl <;> simp [FallsShort, Direction.dx, Direction.dy] at hp ⊢ <;> omega
  have hoffset : (p.offset d (-2147483648)).x = clamp (p.x + d.dx * -2147483648) ∧
      (p.offset d (-2147483648)).y = clamp (p.y + d.dy * -2147483648) := by
    rcases hd with rfl | rfl <;>
      simp [FallsShort, offset, nearest, clamp, Direction.dx, Direction.dy] at hp ⊢ <;> omega
  refine ⟨fun q => ?_, hoffset.1, hoffset.2⟩
  rw [hnone]
  exact iff_of_false (by rintro ⟨⟩) fun hq => hend hq.isCoordinate

/-- **A displacement that falls short:** its end is a position, but there is no result,
and with the limits the result is one cell short of the end. -/
theorem FallsShort.result (h : p.FallsShort d k) :
    (∃ q, p.Reaches d k q) ∧ p.offset? d k = none ∧
      (p.offset d k).x = p.x + d.dx * k + d.dx ∧ (p.offset d k).y = p.y + d.dy * k + d.dy := by
  have hpx := p.isCoordinate_x
  have hpy := p.isCoordinate_y
  obtain ⟨rfl, hd⟩ := h
  have hend : IsCoordinate (p.x + d.dx * -2147483648) ∧
      IsCoordinate (p.y + d.dy * -2147483648) := by
    rcases hd with ⟨rfl, hneg⟩ | ⟨rfl, hneg⟩ <;> simp [Direction.dx, Direction.dy] <;> omega
  have hshift : ¬(IsCoordinate (d.dx * -2147483648) ∧ IsCoordinate (d.dy * -2147483648)) := by
    rw [d.isCoordinate_shift_iff (by decide), Decidable.not_not]
    exact ⟨rfl, hd.imp And.left And.left⟩
  refine ⟨⟨⟨_, _, hend.1, hend.2⟩, rfl, rfl⟩, offset?_of_not_isCoordinate hshift, ?_⟩
  rcases hd with ⟨rfl, hneg⟩ | ⟨rfl, hneg⟩ <;>
    simp [offset, nearest, clamp, Direction.dx, Direction.dy] <;> omega

/-- **Where displacements are exact.**  Take any position, any direction and any
distance among the coordinates, also a negative one.  The displacement comes to the
sum without limits, unless the distance is the lowest coordinate, the direction goes
against an axis, and the coordinate on that axis is negative.  Then the end is a
position, but nothing is returned, and with the limits the position before it. -/
theorem isExact_iff (p : Position) (d : Direction) {k : Int} (hk : IsCoordinate k) :
    (p.IsExact d k ↔ ¬p.FallsShort d k) ∧
    (p.FallsShort d k → (∃ q, p.Reaches d k q) ∧ p.offset? d k = none ∧
      (p.offset d k).x = p.x + d.dx * k + d.dx ∧ (p.offset d k).y = p.y + d.dy * k + d.dy) := by
  refine ⟨⟨fun hexact hshort => ?_, fun hp => ?_⟩, FallsShort.result⟩
  · obtain ⟨⟨q, hq⟩, hnone, -⟩ := hshort.result
    rw [(hexact.offset?_eq_some_iff q).2 hq] at hnone
    cases hnone
  · by_cases h : IsCoordinate (d.dx * k) ∧ IsCoordinate (d.dy * k)
    · exact isExact_of_isCoordinate h
    · exact isExact_of_not_isCoordinate hk h hp

/-- From column zero the lowest coordinate taken to the left has no result, and its end
lies behind the limit.  Taken downwards it is exact.  From the column left of zero the
end is the last column of all, and the result falls short of it. -/
theorem isExact_iff_lowest :
    (nearest 0 1).IsExact .left (-2147483648) ∧
    (nearest 0 1).offset? .down (-2147483648) = some (nearest 0 (-2147483647)) ∧
    ¬(nearest (-1) 0).IsExact .left (-2147483648) ∧
    ((nearest (-1) 0).offset .left (-2147483648)).x = 2147483646 := by
  have hk : IsCoordinate (-2147483648) := by decide
  obtain ⟨hleft, -⟩ := isExact_iff (nearest 0 1) .left hk
  obtain ⟨hdown, -⟩ := isExact_iff (nearest 0 1) .down hk
  obtain ⟨hshort, hresult⟩ := isExact_iff (nearest (-1) 0) .left hk
  have hfalls : (nearest (-1) 0).FallsShort .left (-2147483648) := by decide
  exact ⟨hleft.2 (by decide), ((hdown.2 (by decide)).offset?_eq_some_iff _).2 ⟨rfl, rfl⟩,
    fun hexact => hshort.1 hexact hfalls, (hresult hfalls).2.2.1⟩

/-- So a displacement need not come to the sum without limits: this one has its end in
the last column, but no result, and with the limits a result one column before. -/
theorem offset_short_of_limit :
    let p : Position := nearest (-1) 0
    IsCoordinate (-2147483648) ∧
    p.x + Direction.left.dx * -2147483648 = 2147483647 ∧
    p.y + Direction.left.dy * -2147483648 = 0 ∧
    p.offset? .left (-2147483648) = none ∧
    (p.offset .left (-2147483648)).x ≠ clamp (p.x + Direction.left.dx * -2147483648) := by
  decide

end Position
end Labyrinth
