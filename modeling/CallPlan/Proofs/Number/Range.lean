import CallPlan.Proofs.Number.Midpoints

/-!
# Integers that are too large

The greatest finite number is `(2 ^ 53 - 1) * 2 ^ 971`. An integer goes past it if it is at least
`leastInfinite`, which lies halfway between this number and the power of two behind it: a half goes
to the even neighbour, and that is the power, which no finite number is
(`ofInt?_eq_none_iff`).
-/

namespace CallPlan.Binary64

/-- The least integer that is rounded to no finite number, `2 ^ 1024 - 2 ^ 970`: this is
`2 ^ 54 - 1` times `2 ^ 970`. -/
def leastInfinite : Nat :=
  18014398509481983 * Nat.pow 1024 97

theorem cast_leastInfinite :
    (leastInfinite : ℚ) = (9007199254740992 - 1 / 2) * 2 ^ (971 : Int) := by
  have hpow : (2 : ℚ) ^ (971 : Int) = 2 * 1024 ^ 97 := by
    rw [show (1024 : ℚ) = 2 ^ 10 by norm_num, ← pow_mul]
    exact two_zpow_add 970 1 |>.trans (by rw [pow_one, zpow_ofNat])
  rw [leastInfinite, Nat.cast_mul, Nat.pow_eq, Nat.cast_pow, hpow]
  push_cast
  ring

theorem ofFields_eq_infinite_iff {negative : Bool} {n : Nat} :
    (ofFields negative n).isFinite = false ↔ 2047 * 4503599627370496 ≤ n := by
  unfold ofFields
  split
  · next h =>
    simp only [isFinite, Bool.true_eq_false, false_iff, not_le]
    exact (Nat.div_lt_iff_lt_mul (by decide)).mp h
  · next h =>
    simp only [isFinite, true_iff]
    exact (Nat.le_div_iff_mul_le (by decide)).mp (not_lt.mp h)

/-! ## At an exponent -/

section

variable {x : ℚ} {m k : Nat} {q : Int}

theorem Nearest.natCast_le (h : Nearest x m) (hk : (k : ℚ) ≤ x) : k ≤ m := by
  by_contra hlt
  have hgap : ((m + 1 : Nat) : ℚ) ≤ k := by exact_mod_cast (by omega : m + 1 ≤ k)
  push_cast at hgap
  linarith [h.below]

theorem Nearest.le_natCast (h : Nearest x m) (hk : x ≤ k) : m ≤ k := by
  by_contra hlt
  have hgap : ((k + 1 : Nat) : ℚ) ≤ m := by exact_mod_cast (by omega : k + 1 ≤ m)
  push_cast at hgap
  linarith [h.above]

/-- The halfway point below the power goes up to it, since the integer in front is odd. -/
theorem Nearest.carries_iff (h : Nearest x m) :
    9007199254740992 ≤ m ↔ 9007199254740992 - 1 / 2 ≤ x := by
  constructor
  · intro hm
    have hm : (9007199254740992 : ℚ) ≤ m := by exact_mod_cast hm
    linarith [h.above]
  · intro hx
    by_contra hlt
    have hm : m = 9007199254740991 := by
      have hlow : 9007199254740991 ≤ m := h.natCast_le (by push_cast; linarith)
      omega
    have hcast : (m : ℚ) = 9007199254740991 := by exact_mod_cast hm
    have heven := h.even (.inl (by linarith [h.below]))
    omega

theorem scaled_lt_leastInfinite (hx : x < 2 ^ 53) (hq : q < 971) :
    x * 2 ^ q < leastInfinite := by
  have hdouble : (2 : ℚ) ^ (971 : Int) = 2 ^ 1 * 2 ^ (970 : Int) := two_zpow_add 970 1
  calc x * 2 ^ q < 2 ^ 53 * 2 ^ q := mul_lt_mul_of_pos_right hx (two_zpow_pos q)
    _ ≤ 2 ^ 53 * 2 ^ (970 : Int) :=
        mul_le_mul_of_nonneg_left (two_zpow_le_iff.mpr (by omega)) (by norm_num)
    _ ≤ (9007199254740992 - 1 / 2) * 2 ^ 1 * 2 ^ (970 : Int) :=
        mul_le_mul_of_nonneg_right (by norm_num) (two_zpow_pos _).le
    _ = leastInfinite := by rw [cast_leastInfinite, hdouble, mul_assoc]

theorem leastInfinite_le_scaled (hx : 2 ^ 52 ≤ x) (hq : 971 < q) :
    leastInfinite ≤ x * 2 ^ q := by
  have hdouble : (2 : ℚ) ^ (972 : Int) = 2 ^ 1 * 2 ^ (971 : Int) := two_zpow_add 971 1
  calc (leastInfinite : ℚ) = (9007199254740992 - 1 / 2) * 2 ^ (971 : Int) := cast_leastInfinite
    _ ≤ 2 ^ 52 * 2 ^ 1 * 2 ^ (971 : Int) :=
        mul_le_mul_of_nonneg_right (by norm_num) (two_zpow_pos _).le
    _ = 2 ^ 52 * 2 ^ (972 : Int) := by rw [hdouble, mul_assoc]
    _ ≤ x * 2 ^ q :=
        mul_le_mul hx (two_zpow_le_iff.mpr (by omega)) (two_zpow_pos _).le
          (le_trans (by norm_num) hx)

/-- A value of `x` units at its exponent, rounded to `m` of them, is past the last field exactly
from the halfway point on. -/
theorem past_iff {r : ℚ} (hr : r = x * 2 ^ q) (hfits : Fits r q) (hm : Nearest x m) :
    2047 * 4503599627370496 ≤ (q + 1074).toNat * 4503599627370496 + m ↔ leastInfinite ≤ r := by
  have hleast := hfits.least
  have hbelow : x < 2 ^ 53 := by
    have h := hfits.below
    rw [hr, show q + 53 = q + (53 : Nat) from rfl, two_zpow_add] at h
    exact lt_of_mul_lt_mul_right h (two_zpow_pos q).le
  have hsmall : m ≤ 9007199254740992 :=
    hm.le_natCast (le_of_lt (lt_of_lt_of_eq hbelow (by norm_num)))
  rcases lt_trichotomy q 971 with hless | rfl | hlarge
  · have hr := hr ▸ scaled_lt_leastInfinite hbelow hless
    exact ⟨fun h => absurd h (by omega), fun h => absurd h (not_le.mpr hr)⟩
  · rw [hr, cast_leastInfinite, mul_le_mul_iff_left₀ (two_zpow_pos 971), ← hm.carries_iff]
    omega
  · have habove : (2 : ℚ) ^ 52 ≤ x := by
      have h := hfits.above.resolve_left (by omega)
      rw [hr, show q + 52 = q + (52 : Nat) from rfl, two_zpow_add] at h
      exact le_of_mul_le_mul_right h (two_zpow_pos q)
    have hm : 4503599627370496 ≤ m := hm.natCast_le (le_of_eq_of_le (by norm_num) habove)
    exact ⟨fun _ => hr ▸ leastInfinite_le_scaled habove hlarge, fun _ => by omega⟩

end

/-! ## Integers -/

theorem isFinite_ofRatio_iff (negative : Bool) {n : Nat} (hn : 0 < n) :
    (ofRatio negative n 1).isFinite = false ↔ leastInfinite ≤ n := by
  have hfits := fits_exponentFor hn Nat.one_pos
  have hnearest := nearest_scaled n Nat.one_pos (exponentFor n 1)
  rw [ofRatio_eq negative hn Nat.one_pos hfits hnearest, ofFields_eq_infinite_iff]
  rw [Nat.cast_one, div_one] at hfits hnearest
  rw [past_iff ?_ hfits hnearest, Nat.cast_le]
  rw [mul_assoc, ← zpow_add₀ (by norm_num), neg_add_cancel, zpow_zero, mul_one]

theorem leastInfinite_le_of_length {n : Nat} (h : 310 < decimalLength n) : leastInfinite ≤ n := by
  have hn : 0 < n := by
    by_contra hzero
    obtain rfl : n = 0 := by omega
    exact absurd h (by decide)
  have hless : (leastInfinite : ℚ) ≤ n :=
    calc (leastInfinite : ℚ) = (9007199254740992 - 1 / 2) * 2 ^ (971 : Int) := cast_leastInfinite
      _ ≤ 2 ^ 53 * 2 ^ (971 : Int) :=
          mul_le_mul_of_nonneg_right (by norm_num) (two_zpow_pos _).le
      _ = 2 ^ (1024 : Int) := (two_zpow_add 971 53).symm
      _ ≤ 10 ^ (309 : Int) := two_zpow_lt_greatest.le
      _ ≤ 10 ^ (decimalLength n + 0 - 1 : Int) := zpow_le_zpow_right₀ (by norm_num) (by omega)
      _ ≤ n * 10 ^ (0 : Int) := ten_zpow_le_decimal hn 0
      _ = n := by rw [zpow_zero, mul_one]
  exact_mod_cast hless

theorem ofInt?_eq_none_iff_isFinite {n : Int} :
    ofInt? n = none ↔ (ofDecimal (n < 0) n.natAbs 0).isFinite = false := by
  unfold ofInt?
  cases ofDecimal (n < 0) n.natAbs 0 <;> simp [isFinite]

/-- **An integer has a nearest finite number** unless its size is at least halfway between the
greatest one and the power of two behind it. -/
theorem ofInt?_eq_none_iff {n : Int} : ofInt? n = none ↔ leastInfinite ≤ n.natAbs := by
  rw [ofInt?_eq_none_iff_isFinite, ofDecimal]
  split
  · next hzero =>
    rw [hzero]
    simp [zero, isFinite, leastInfinite]
  · split
    · next hlong =>
      simp only [isFinite, true_iff]
      exact leastInfinite_le_of_length (by omega)
    · split
      · next hshort =>
        have := decimalLength_pos n.natAbs
        omega
      · next hzero hlong hshort =>
        have hone : n.natAbs * Nat.pow 10 (0 : Int).toNat = n.natAbs := Nat.mul_one _
        rw [hone]
        exact isFinite_ofRatio_iff _ (Nat.pos_of_ne_zero hzero)

end CallPlan.Binary64
