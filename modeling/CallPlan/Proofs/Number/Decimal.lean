import CallPlan.Number.Decimal
import Mathlib.Algebra.Order.Field.Basic
import Mathlib.Data.Rat.Cast.Order
import Mathlib.Tactic.Linarith
import Mathlib.Tactic.Positivity

/-!
# The exact value of a decimal

A finite decimal is a rational number (`Decimal.value?`), and the integer that it is taken for
is that number (`toInt?_eq_some_iff`): no digit is lost, and a decimal that is no integer is
taken for none. A negative power of ten leaves an integer only if it divides the coefficient,
so a coefficient with no more digits than the power takes away is looked at no further.
-/

namespace CallPlan.Decimal

/-- The number that a finite decimal writes. -/
def value? : Decimal → Option ℚ
  | .finite negative c e => some ((if negative then -1 else 1) * (c * 10 ^ e))
  | _ => none

theorem exists_value?_of_isFinite {d : Decimal} (h : d.isFinite = true) :
    ∃ r, d.value? = some r := by
  cases d with
  | finite negative c e => exact ⟨_, rfl⟩
  | infinite negative => cases h
  | undefined negative signalling payload => cases h

/-- The size of a whole decimal. -/
def whole? (c : Nat) (e : Int) : Option Nat :=
  if 0 ≤ e then some (c * Nat.pow 10 e.toNat)
  else if c = 0 then some 0
  else if Binary64.decimalLength c ≤ (-e).toNat then none
  else if c % Nat.pow 10 (-e).toNat = 0 then some (c / Nat.pow 10 (-e).toNat)
  else none

theorem toInt?_finite (negative : Bool) (c : Nat) (e : Int) :
    (finite negative c e).toInt? =
      (whole? c e).map fun n : Nat => if negative then -(n : Int) else n := by
  change ((whole? c e).bind fun n => some (n : Int)).map _ = _
  cases whole? c e <;> rfl

theorem cast_mul_pow_neg {c k m : Nat} :
    (c : ℚ) * 10 ^ (-(k : Int)) = m ↔ c = m * 10 ^ k := by
  have hpow : (10 : ℚ) ^ k ≠ 0 := by positivity
  rw [zpow_neg, zpow_natCast, mul_inv_eq_iff_eq_mul₀ hpow]
  exact_mod_cast Iff.rfl

theorem whole?_eq_some_iff {c : Nat} {e : Int} {m : Nat} :
    whole? c e = some m ↔ (c : ℚ) * 10 ^ e = m := by
  unfold whole?
  split
  · next he =>
    obtain ⟨k, rfl⟩ := Int.eq_ofNat_of_zero_le he
    rw [Option.some.injEq, zpow_natCast]
    exact_mod_cast Iff.rfl
  · next he =>
    obtain ⟨k, rfl⟩ : ∃ k : Nat, e = -(k : Int) := ⟨(-e).toNat, by omega⟩
    have hk : 0 < k := by omega
    rw [cast_mul_pow_neg, neg_neg, Int.toNat_natCast]
    have hpos : 0 < 10 ^ k := by positivity
    split
    · next hc => simp [hc, eq_comm]
    · next hc =>
      split
      · next hlength =>
        have hsmall : c < 10 ^ k := (Nat.length_toDigits_le_iff (by decide) hk).mp hlength
        constructor
        · intro h
          cases h
        · rintro rfl
          have hm : m ≠ 0 := fun hm => hc (by simp [hm])
          have hge : 10 ^ k ≤ m * 10 ^ k := Nat.le_mul_of_pos_left _ (Nat.pos_of_ne_zero hm)
          omega
      · split
        · next hdvd =>
          rw [Option.some.injEq]
          exact Nat.div_eq_iff_eq_mul_left hpos (Nat.dvd_of_mod_eq_zero hdvd)
        · next hdvd =>
          constructor
          · intro h
            cases h
          · rintro rfl
            exact absurd (Nat.mul_mod_left m (10 ^ k)) hdvd

/-- A decimal is taken for an integer exactly if it is that integer. -/
theorem toInt?_eq_some_iff {d : Decimal} {n : Int} :
    d.toInt? = some n ↔ d.value? = some (n : ℚ) := by
  cases d with
  | finite negative c e =>
      have hnonneg : (0 : ℚ) ≤ c * 10 ^ e :=
        mul_nonneg (Nat.cast_nonneg c) (zpow_nonneg (by norm_num) e)
      rw [toInt?_finite, value?, Option.map_eq_some_iff]
      simp only [whole?_eq_some_iff, Option.some.injEq]
      constructor
      · rintro ⟨m, hm, rfl⟩
        rw [hm]
        cases negative <;> simp
      · intro h
        have hsize : ((n.natAbs : Nat) : ℚ) = c * 10 ^ e := by
          rw [Nat.cast_natAbs, Int.cast_abs, ← h, abs_mul, abs_of_nonneg hnonneg]
          cases negative <;> simp
        refine ⟨n.natAbs, hsize.symm, Int.cast_injective (Eq.trans ?_ h)⟩
        rw [← hsize]
        cases negative <;> simp
  | infinite negative => simp [toInt?, value?]
  | undefined negative signalling payload => simp [toInt?, value?]

theorem toInt?_pow (e : Nat) : (finite false 1 e).toInt? = some ((10 ^ e : Nat) : Int) := by
  rw [toInt?_eq_some_iff, value?, Option.some.injEq]
  simp

end CallPlan.Decimal
