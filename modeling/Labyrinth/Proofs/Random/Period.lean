/-
# The register comes through all numbers

A draw takes the register `r` to `a r + c` modulo `m`, and moves it by the step
`(a - 1) r + c`.  Every draw after it multiplies the step by `a`, so `k` draws move
the register by `1 + a + ⋯ + a^(k-1)` steps (`Lcg.register_iterate`).  The modulus
shares no prime with a step, since its primes divide `a - 1` and do not divide `c`.
And it divides a sum of `k` powers of `a` only where it divides `k`, since the sum
holds each prime of `a - 1` as often as `k` does (`emultiplicity_geom_sum`).

So the register is back after `m` draws and not before, whatever it was
(`Lcg.iterate_advance_eq_iff`), and on the way it comes through every number below
`m` (`Lcg.full_period`).
-/

import Mathlib.Data.Fintype.EquivFin
import Mathlib.Data.Nat.ModEq
import Mathlib.NumberTheory.Multiplicity
import Mathlib.RingTheory.Coprime.Lemmas
import Labyrinth.Proofs.Random.Hash
import Labyrinth.Random.Lcg

namespace Labyrinth

/-! ## Sums of powers -/

/-- What a multiplier `a`, an increment `c` and a modulus `m` need for a full period:
every prime of the modulus divides `a - 1`, twice if it is two, and does not divide
`c`. -/
structure IsFullPeriod (a c : Int) (m : Nat) : Prop where
  dvd_sub_one : ∀ p : Nat, p.Prime → p ∣ m → (p : Int) ∣ a - 1
  four_dvd_sub_one : 2 ∣ m → 4 ∣ a - 1
  not_dvd : ∀ p : Nat, p.Prime → p ∣ m → ¬(p : Int) ∣ c

/-- **A sum of `k` powers holds a prime as often as `k` does**, if the base is one
more than a multiple of the prime. -/
theorem emultiplicity_geom_sum {p : Nat} (hp : p.Prime) {a : Int} (hdvd : (p : Int) ∣ a - 1)
    (hfour : p = 2 → 4 ∣ a - 1) (k : Nat) :
    emultiplicity (p : Int) (∑ i ∈ Finset.range k, a ^ i) = emultiplicity p k := by
  by_cases ha : a = 1
  · rw [ha, one_geom_sum, Int.natCast_emultiplicity]
  have hprime : Prime (p : Int) := Nat.prime_iff_prime_int.1 hp
  have hnot : ¬(p : Int) ∣ a := fun h => hprime.not_dvd_one (by simpa using dvd_sub h hdvd)
  have hpower : emultiplicity (p : Int) (a ^ k - 1) =
      emultiplicity (p : Int) (a - 1) + emultiplicity p k := by
    -- at two this needs a multiple of four: `1 + 3` holds two more often than 2 does
    rcases hp.eq_two_or_odd' with rfl | hodd
    · have h := Int.two_pow_sub_pow' k (hfour rfl) hnot
      rw [one_pow] at h
      exact h.trans (congrArg _ (Int.natCast_emultiplicity 2 k))
    · have h := Int.emultiplicity_pow_sub_pow hp hodd hdvd hnot k
      rwa [one_pow] at h
  have hfinite : emultiplicity (p : Int) (a - 1) ≠ ⊤ :=
    finiteMultiplicity_iff_emultiplicity_ne_top.1
      (Int.finiteMultiplicity_iff.2 ⟨by simpa using hp.ne_one, sub_ne_zero.2 ha⟩)
  rw [← geom_sum_mul, emultiplicity_mul hprime, add_comm] at hpower
  exact (ENat.addLECancellable_of_ne_top hfinite).inj.1 hpower

/-- **The modulus divides a sum of powers exactly if it divides their number.** -/
theorem IsFullPeriod.dvd_geom_sum_iff {a c : Int} {m : Nat} (h : IsFullPeriod a c m) (k : Nat) :
    (m : Int) ∣ ∑ i ∈ Finset.range k, a ^ i ↔ m ∣ k := by
  -- both divisibilities are decided at the prime powers of the modulus
  rw [Int.natCast_dvd, Nat.dvd_iff_prime_pow_dvd_dvd, Nat.dvd_iff_prime_pow_dvd_dvd]
  refine forall_congr' fun p => forall_congr' fun j => imp_congr_right fun hp =>
    imp_congr_right fun hm => ?_
  cases j with
  | zero => simp
  | succ j =>
    have hpm : p ∣ m := (dvd_pow_self p (Nat.succ_ne_zero j)).trans hm
    have hfour : p = 2 → 4 ∣ a - 1 := fun h2 => h.four_dvd_sub_one (h2 ▸ hpm)
    rw [← Int.natCast_dvd, Nat.cast_pow, pow_dvd_iff_le_emultiplicity,
      emultiplicity_geom_sum hp (h.dvd_sub_one p hp hpm) hfour, pow_dvd_iff_le_emultiplicity]

/-- A step shares no prime with the modulus. -/
theorem IsFullPeriod.isCoprime_step {a c : Int} {m : Nat} (h : IsFullPeriod a c m) (r : Int) :
    IsCoprime (m : Int) ((a - 1) * r + c) := by
  rw [Int.isCoprime_iff_gcd_eq_one]
  refine Nat.coprime_of_dvd fun p hp hm hstep => h.not_dvd p hp hm ?_
  rw [← Int.natCast_dvd] at hstep
  exact (Int.dvd_add_right ((h.dvd_sub_one p hp hm).mul_right r)).1 hstep

/-! ## Numbers below a bound -/

/-- As many different numbers below `m` as there are come through all of them. -/
theorem exists_eq_of_injective {m : Nat} {f : Nat → Int} (hf : ∀ i, 0 ≤ f i ∧ f i < m)
    (hinj : ∀ i j, i < m → j < m → f i = f j → i = j) {v : Int} (hv : 0 ≤ v ∧ v < m) :
    ∃ i, i < m ∧ f i = v := by
  have hlt : ∀ i, (f i).toNat < m := fun i => by
    have := hf i
    omega
  have hinjective : Function.Injective fun i : Fin m => (⟨(f i).toNat, hlt i⟩ : Fin m) := by
    intro i j hij
    have hi := hf i
    have hj := hf j
    have hnat := Fin.mk.inj hij
    exact Fin.ext (hinj i j i.isLt j.isLt (by omega))
  obtain ⟨i, hi⟩ := Finite.injective_iff_surjective.1 hinjective ⟨v.toNat, by omega⟩
  have hfi := hf i
  have hnat := Fin.mk.inj hi
  exact ⟨i, i.isLt, by omega⟩

/-! ## Draws -/

namespace Lcg

/-- The numbers of this generator give it a full period. -/
theorem isFullPeriod : IsFullPeriod multiplier increment 233280 where
  dvd_sub_one p hp hm := by
    -- the primes need not be listed: they all divide a power of the multiplier less one
    have hpower : (p : Int) ∣ (multiplier - 1) ^ 6 :=
      (Int.natCast_dvd_natCast.2 hm).trans (by decide)
    exact (Nat.prime_iff_prime_int.1 hp).dvd_of_dvd_pow hpower
  four_dvd_sub_one _ := by decide
  not_dvd p hp hm hc := by
    have hcoprime : Nat.Coprime 233280 49297 := by decide
    exact hp.not_dvd_one (hcoprime ▸ Nat.dvd_gcd hm (Int.natCast_dvd_natCast.1 hc))

/-- After a draw the register is a number below the modulus. -/
theorem advance_bounds (g : Lcg) : 0 ≤ g.advance.register ∧ g.advance.register < modulus :=
  ⟨Int.emod_nonneg _ (by decide), Int.emod_lt_of_pos _ (by decide)⟩

/-- From the first draw on the register lies below the modulus. -/
theorem iterate_advance_bounds (g : Lcg) {n : Nat} (hn : 1 ≤ n) :
    0 ≤ (advance^[n] g).register ∧ (advance^[n] g).register < modulus := by
  obtain ⟨n, rfl⟩ := Nat.exists_eq_add_of_le' hn
  rw [Function.iterate_succ_apply']
  exact advance_bounds _

/-- **Several draws move the register by a sum of powers of steps.** -/
theorem register_iterate (g : Lcg) (k : Nat) :
    (advance^[k] g).register ≡ g.register +
      (∑ i ∈ Finset.range k, multiplier ^ i) * ((multiplier - 1) * g.register + increment)
      [ZMOD modulus] := by
  induction k with
  | zero => simp [Int.ModEq.refl]
  | succ k ih =>
    rw [Function.iterate_succ_apply', geom_sum_succ]
    calc (advance^[k] g).advance.register
        ≡ (advance^[k] g).register * multiplier + increment [ZMOD modulus] := Int.mod_modEq _ _
      _ ≡ (g.register + (∑ i ∈ Finset.range k, multiplier ^ i) *
            ((multiplier - 1) * g.register + increment)) * multiplier + increment
            [ZMOD modulus] := (ih.mul_right _).add_right _
      _ = _ := by ring

/-- **The register is back, up to a multiple of the modulus, exactly after whole
periods.** -/
theorem register_iterate_modEq_iff (g : Lcg) (k : Nat) :
    (advance^[k] g).register ≡ g.register [ZMOD modulus] ↔ 233280 ∣ k := by
  have hmove := register_iterate g k
  calc (advance^[k] g).register ≡ g.register [ZMOD modulus]
      ↔ g.register ≡ g.register + (∑ i ∈ Finset.range k, multiplier ^ i) *
          ((multiplier - 1) * g.register + increment) [ZMOD modulus] :=
        ⟨fun h => h.symm.trans hmove, fun h => hmove.trans h.symm⟩
    _ ↔ modulus ∣ (∑ i ∈ Finset.range k, multiplier ^ i) *
          ((multiplier - 1) * g.register + increment) := by
        rw [Int.modEq_iff_dvd, add_sub_cancel_left]
    _ ↔ modulus ∣ ∑ i ∈ Finset.range k, multiplier ^ i :=
        ⟨(isFullPeriod.isCoprime_step g.register).dvd_of_dvd_mul_right, fun h => h.mul_right _⟩
    _ ↔ 233280 ∣ k := isFullPeriod.dvd_geom_sum_iff k

/-- **After the first draw the register repeats exactly after whole periods.** -/
theorem register_iterate_eq_iff (g : Lcg) {n m : Nat} (hn : 1 ≤ n) (hm : 1 ≤ m) :
    (advance^[n] g).register = (advance^[m] g).register ↔ n ≡ m [MOD 233280] := by
  wlog hle : n ≤ m generalizing n m
  · rw [eq_comm, this hm hn (Nat.le_of_not_le hle), Nat.ModEq.comm]
  obtain ⟨k, rfl⟩ := Nat.exists_eq_add_of_le' hle
  have hbounds := iterate_advance_bounds g hn
  have hbounds' := iterate_advance_bounds g hm
  rw [Nat.modEq_iff_dvd' hle, Nat.add_sub_cancel, ← register_iterate_modEq_iff (advance^[n] g),
    ← Function.iterate_add_apply, Int.ModEq, Int.emod_eq_of_lt hbounds.1 hbounds.2,
    Int.emod_eq_of_lt hbounds'.1 hbounds'.2, eq_comm]

/-- **Every number below the modulus comes exactly once in a period.** -/
theorem existsUnique_register (g : Lcg) {n : Nat} (hn : 1 ≤ n) {v : Int}
    (hv : 0 ≤ v ∧ v < modulus) :
    ∃! i, i < 233280 ∧ (advance^[n + i] g).register = v := by
  have hinj : ∀ i j, i < 233280 → j < 233280 →
      (advance^[n + i] g).register = (advance^[n + j] g).register → i = j := by
    intro i j hi hj h
    have hmod := (register_iterate_eq_iff g (by omega) (by omega)).1 h
    exact (Nat.ModEq.add_left_cancel' n hmod).eq_of_lt_of_lt hi hj
  obtain ⟨i, hi, hv'⟩ := exists_eq_of_injective
    (fun i => iterate_advance_bounds g (n := n + i) (by omega)) hinj hv
  exact ⟨i, ⟨hi, hv'⟩, fun j ⟨hj, hjv⟩ => hinj j i hj hi (hjv.trans hv'.symm)⟩

/-! ## Seeds -/

/-- The register of a seed after a number of draws. -/
def registerAfter (seed : String) (n : Nat) : Int := (advance^[n] (ofSeed seed)).register

/-- Before the first draw the register holds the hash, and afterwards a smaller number:
it never needs more than 32 bits. -/
theorem registerAfter_bounds (seed : String) (n : Nat) :
    -2147483648 ≤ registerAfter seed n ∧ registerAfter seed n ≤ 2147483647 := by
  cases n with
  | zero => exact textHash_bounds seed
  | succ n =>
    have h : 0 ≤ registerAfter seed (n + 1) ∧ registerAfter seed (n + 1) < 233280 :=
      iterate_advance_bounds (ofSeed seed) (Nat.le_add_left 1 n)
    omega

/-- The numbers of the 64-bit signed range. -/
def IsWord (n : Int) : Prop := -9223372036854775808 ≤ n ∧ n ≤ 9223372036854775807

/-- **The register of every seed has the full period.**  Whatever the seed, also where its
hash is negative, a draw never leaves the 64-bit range: not with the register that it
finds, nor with the product or the sum before the remainder.  Every draw leaves a number
in `0, …, 233279`.  Two draws leave the same number exactly if their numbers are congruent
modulo 233280.  So any 233280 draws in a row come through all these numbers, each once. -/
theorem full_period (seed : String) :
    (∀ n, IsWord (registerAfter seed n) ∧ IsWord (registerAfter seed n * multiplier) ∧
      IsWord (registerAfter seed n * multiplier + increment)) ∧
    (∀ n, 1 ≤ n → 0 ≤ registerAfter seed n ∧ registerAfter seed n ≤ 233279) ∧
    (∀ n m, 1 ≤ n → 1 ≤ m →
      (registerAfter seed n = registerAfter seed m ↔ n ≡ m [MOD 233280])) ∧
    ∀ n, 1 ≤ n → ∀ v, 0 ≤ v ∧ v ≤ 233279 → ∃! i, i < 233280 ∧ registerAfter seed (n + i) = v := by
  refine ⟨fun n => ?_, fun n hn => ?_, fun n m => register_iterate_eq_iff _, fun n hn v hv => ?_⟩
  · have h := registerAfter_bounds seed n
    simp only [IsWord, multiplier, increment]
    omega
  · have h : 0 ≤ registerAfter seed n ∧ registerAfter seed n < 233280 :=
      iterate_advance_bounds _ hn
    omega
  · exact existsUnique_register _ hn ⟨hv.1, Int.lt_of_le_of_lt hv.2 (by decide)⟩

/-- A seed with a negative hash: its first number is back after 233280 draws, and not
after half as many. -/
theorem full_period_zzzzzzzz :
    registerAfter "zzzzzzzz" 0 = -1910022912 ∧ registerAfter "zzzzzzzz" 1 = 183505 ∧
      registerAfter "zzzzzzzz" 233281 = 183505 ∧ registerAfter "zzzzzzzz" 116641 ≠ 183505 ∧
      ∃! i, i < 233280 ∧ registerAfter "zzzzzzzz" (1 + i) = 0 := by
  have hfirst : registerAfter "zzzzzzzz" 1 = 183505 := by decide +kernel
  obtain ⟨-, -, hrepeat, hall⟩ := full_period "zzzzzzzz"
  refine ⟨by decide +kernel, hfirst, ?_, ?_, hall 1 (by decide) 0 (by decide)⟩
  · rw [← hfirst]
    exact (hrepeat 233281 1 (by decide) (by decide)).2 (by decide)
  · rw [← hfirst]
    exact fun h => absurd ((hrepeat 116641 1 (by decide) (by decide)).1 h) (by decide)

end Lcg
end Labyrinth
