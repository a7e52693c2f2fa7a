import CallPlan.Number.Binary64
import Mathlib.Algebra.Order.Field.Power
import Mathlib.Data.Rat.Cast.Order
import Mathlib.Tactic.FieldSimp
import Mathlib.Tactic.Linarith
import Mathlib.Tactic.Positivity
import Mathlib.Tactic.Ring

/-!
# Rounding to binary numbers

A positive ratio is rounded in two steps. Its exponent is the one at which 53 bits stand before
the point, or the least there is (`Fits`), and at this exponent it is rounded to the nearest
integer, a half to the even one (`Nearest`). Both are properties of the rational number and
determine the outcome (`ofRatio_eq`), so that two ratios of one value have one nearest number
(`ofRatio_congr`).

A decimal is rounded as the ratio it is, and one far outside the range of the format at once. Its
length tells the powers of ten next to it, so that this too is a property of the value
(`ofDecimal_congr`).
-/

namespace CallPlan.Binary64

/-! ## Nearest integers -/

/-- The integer is nearest to the number, and of two equally near ones the even one. -/
structure Nearest (x : ℚ) (m : Nat) : Prop where
  below : x ≤ m + 1 / 2
  above : m - 1 / 2 ≤ x
  even : x = m + 1 / 2 ∨ x = m - 1 / 2 → m % 2 = 0

theorem Nearest.le {x : ℚ} {m n : Nat} (h : Nearest x m) (h' : Nearest x n) : m ≤ n := by
  by_contra hlt
  have hgap : ((n + 1 : Nat) : ℚ) ≤ m := by exact_mod_cast (by omega : n + 1 ≤ m)
  push_cast at hgap
  -- The two are neighbours, and the number is halfway: then both are even.
  have hx : x = n + 1 / 2 := le_antisymm h'.below (by linarith [h.above])
  have hm : (m : ℚ) = n + 1 := le_antisymm (by linarith [h.above]) hgap
  have heven := h.even (.inr (by linarith))
  have heven' := h'.even (.inl hx)
  have hsucc : m = n + 1 := by exact_mod_cast hm
  omega

theorem Nearest.unique {x : ℚ} {m n : Nat} (h : Nearest x m) (h' : Nearest x n) : m = n :=
  Nat.le_antisymm (h.le h') (h'.le h)

theorem nearest_of_lt_half {q : Nat} {t : ℚ} (hpos : 0 ≤ t) (ht : t < 1 / 2) :
    Nearest (q + t) q := by
  refine ⟨by linarith, by linarith, ?_⟩
  rintro (h | h) <;> linarith

theorem nearest_of_half_lt {q : Nat} {t : ℚ} (ht : 1 / 2 < t) (hone : t < 1) :
    Nearest (q + t) (q + 1) := by
  have hsucc : ((q + 1 : Nat) : ℚ) = q + 1 := Nat.cast_succ q
  refine ⟨by linarith, by linarith, ?_⟩
  rintro (h | h) <;> linarith

/-- A half goes to the even neighbour. -/
theorem nearest_of_even {q : Nat} (hq : q % 2 = 0) : Nearest (q + 1 / 2) q :=
  ⟨by linarith, by linarith, fun _ => hq⟩

theorem nearest_of_odd {q : Nat} (hq : q % 2 = 1) : Nearest (q + 1 / 2) (q + 1) := by
  have hsucc : ((q + 1 : Nat) : ℚ) = q + 1 := Nat.cast_succ q
  exact ⟨by linarith, by linarith, fun _ => by omega⟩

/-- A ratio is compared with a half by doubling. -/
theorem ratio_lt_half_iff {num den : Nat} (hden : 0 < den) :
    (num : ℚ) / den < 1 / 2 ↔ 2 * num < den := by
  have hpos : (0 : ℚ) < den := by exact_mod_cast hden
  rw [div_lt_div_iff₀ hpos two_pos, one_mul, mul_comm]
  exact_mod_cast Iff.rfl

theorem half_lt_ratio_iff {num den : Nat} (hden : 0 < den) :
    1 / 2 < (num : ℚ) / den ↔ den < 2 * num := by
  have hpos : (0 : ℚ) < den := by exact_mod_cast hden
  rw [div_lt_div_iff₀ two_pos hpos, one_mul, mul_comm (num : ℚ)]
  exact_mod_cast Iff.rfl

theorem nearest_roundDiv (num : Nat) {den : Nat} (hden : 0 < den) :
    Nearest (num / den) (roundDiv num den) := by
  have hpos : (0 : ℚ) < den := by exact_mod_cast hden
  have hnum : (num : ℚ) = den * (num / den : Nat) + (num % den : Nat) := by
    exact_mod_cast (Nat.div_add_mod num den).symm
  have hx : (num : ℚ) / den = (num / den : Nat) + (num % den : Nat) / den := by
    rw [hnum]
    field_simp
  have hless : ((num % den : Nat) : ℚ) / den < 1 := by
    rw [div_lt_one hpos]
    exact_mod_cast Nat.mod_lt num hden
  unfold roundDiv
  rw [hx]
  simp only [Bool.or_eq_true, decide_eq_true_eq, Bool.and_eq_true, beq_iff_eq]
  generalize num / den = q
  generalize num % den = r at *
  -- How far the quotient is from the integer below is told by twice the remainder.
  rcases lt_trichotomy (2 * r) den with hlt | heq | hgt
  · rw [if_neg (by omega)]
    exact nearest_of_lt_half (by positivity) ((ratio_lt_half_iff hden).mpr hlt)
  · have hhalf : (r : ℚ) / den = 1 / 2 := by
      refine le_antisymm (not_lt.mp fun h => ?_) (not_lt.mp fun h => ?_)
      · exact absurd ((half_lt_ratio_iff hden).mp h) (by omega)
      · exact absurd ((ratio_lt_half_iff hden).mp h) (by omega)
    rw [hhalf]
    by_cases hodd : q % 2 = 1
    · rw [if_pos (.inr ⟨heq, hodd⟩)]
      exact nearest_of_odd hodd
    · rw [if_neg (by omega)]
      exact nearest_of_even (by omega)
  · rw [if_pos (.inl hgt)]
    exact nearest_of_half_lt ((half_lt_ratio_iff hden).mpr hgt) hless

/-! ## Exponents -/

/-- The exponent at which a value has 53 bits before the point, or the least one. -/
structure Fits (r : ℚ) (q : Int) : Prop where
  least : -1074 ≤ q
  below : r < 2 ^ (q + 53)
  above : q = -1074 ∨ (2 : ℚ) ^ (q + 52) ≤ r

theorem two_zpow_lt_iff {m n : Int} : (2 : ℚ) ^ m < 2 ^ n ↔ m < n :=
  zpow_lt_zpow_iff_right₀ (by norm_num)

theorem two_zpow_le_iff {m n : Int} : (2 : ℚ) ^ m ≤ 2 ^ n ↔ m ≤ n :=
  zpow_le_zpow_iff_right₀ (by norm_num)

theorem Fits.le {r : ℚ} {q q' : Int} (h : Fits r q) (h' : Fits r q') : q ≤ q' := by
  rcases h.above with hleast | habove
  · rw [hleast]
    exact h'.least
  · have hlt := two_zpow_lt_iff.mp (lt_of_le_of_lt habove h'.below)
    omega

theorem Fits.unique {r : ℚ} {q q' : Int} (h : Fits r q) (h' : Fits r q') : q = q' :=
  le_antisymm (h.le h') (h'.le h)

/-- A power of two is compared with a ratio by multiplying out. -/
theorem two_zpow_le_ratio_iff {num den : Nat} (hden : 0 < den) (a b : Nat) :
    (2 : ℚ) ^ ((a : Int) - b) ≤ num / den ↔ den * 2 ^ a ≤ num * 2 ^ b := by
  have hpos : (0 : ℚ) < den := by exact_mod_cast hden
  have hb : (0 : ℚ) < 2 ^ b := by positivity
  rw [zpow_sub₀ (by norm_num), zpow_natCast, zpow_natCast, div_le_div_iff₀ hb hpos, mul_comm]
  exact_mod_cast Iff.rfl

/-- The lengths of its two integers leave two powers of two next to a ratio. -/
theorem log2_bounds {num den : Nat} (hnum : 0 < num) (hden : 0 < den) :
    (2 : ℚ) ^ ((num.log2 : Int) - den.log2 - 1) ≤ num / den ∧
      (num : ℚ) / den < 2 ^ ((num.log2 : Int) - den.log2 + 1) := by
  have hbelow : (num.log2 : Int) - den.log2 - 1 = (num.log2 : Nat) - (den.log2 + 1 : Nat) := by
    omega
  have habove : (num.log2 : Int) - den.log2 + 1 = (num.log2 + 1 : Nat) - (den.log2 : Nat) := by
    omega
  constructor
  · rw [hbelow, two_zpow_le_ratio_iff hden]
    calc den * 2 ^ num.log2 ≤ 2 ^ (den.log2 + 1) * num :=
          Nat.mul_le_mul Nat.lt_log2_self.le (Nat.log2_self_le hnum.ne')
      _ = num * 2 ^ (den.log2 + 1) := Nat.mul_comm _ _
  · rw [← not_le, habove, two_zpow_le_ratio_iff hden, not_le]
    calc num * 2 ^ den.log2 < 2 ^ (num.log2 + 1) * 2 ^ den.log2 :=
          Nat.mul_lt_mul_of_pos_right Nat.lt_log2_self (Nat.two_pow_pos _)
      _ ≤ 2 ^ (num.log2 + 1) * den := Nat.mul_le_mul_left _ (Nat.log2_self_le hden.ne')
      _ = den * 2 ^ (num.log2 + 1) := Nat.mul_comm _ _

/-- The comparison that decides between the two exponents, in integers. -/
theorem wide_iff {num den : Nat} (hden : 0 < den) (q : Int) :
    (if q ≥ 0 then num ≥ den * Nat.pow 2 (53 + q.toNat)
      else num * Nat.pow 2 (-q).toNat ≥ den * Nat.pow 2 53) ↔
      (2 : ℚ) ^ (q + 53) ≤ num / den := by
  split
  · next h =>
    have hexp : q + 53 = ((53 + q.toNat : Nat) : Int) - (0 : Nat) := by omega
    rw [hexp, two_zpow_le_ratio_iff hden, pow_zero, mul_one]
    exact Iff.rfl
  · next h =>
    have hexp : q + 53 = ((53 : Nat) : Int) - ((-q).toNat : Nat) := by omega
    rw [hexp, two_zpow_le_ratio_iff hden]
    exact Iff.rfl

theorem fits_max {r : ℚ} {q : Int} (hlow : (2 : ℚ) ^ (q + 52) ≤ r) (hhigh : r < 2 ^ (q + 53)) :
    Fits r (max q (-1074)) := by
  rcases le_total q (-1074) with hsmall | hlarge
  · rw [max_eq_right hsmall]
    exact ⟨le_refl _, lt_of_lt_of_le hhigh (two_zpow_le_iff.mpr (by omega)), .inl rfl⟩
  · rw [max_eq_left hlarge]
    exact ⟨hlarge, hhigh, .inr hlow⟩

theorem fits_exponentFor {num den : Nat} (hnum : 0 < num) (hden : 0 < den) :
    Fits (num / den) (exponentFor num den) := by
  obtain ⟨hlow, hhigh⟩ := log2_bounds hnum hden
  unfold exponentFor
  simp only [wide_iff hden]
  generalize (num.log2 : Int) - den.log2 = n at *
  split
  · next h =>
    refine fits_max ?_ ?_
    · rwa [add_assoc]
    · rwa [show n - 53 + 1 + 53 = n + 1 by omega]
  · next h =>
    refine fits_max ?_ (not_le.mp h)
    rwa [show n - 53 + 52 = n - 1 by omega]

/-! ## Nearest numbers -/

/-- An integer times a power, as a quotient of integers. -/
theorem whole_ratio {base : Nat} (hbase : 0 < base) (n : Nat) (k : Int) :
    ((n * Nat.pow base k.toNat : Nat) : ℚ) / (Nat.pow base (-k).toNat : Nat) =
      n * (base : ℚ) ^ k := by
  have hpos : (base : ℚ) ≠ 0 := by exact_mod_cast hbase.ne'
  rcases le_total 0 k with h | h
  · obtain ⟨j, rfl⟩ := Int.eq_ofNat_of_zero_le h
    have hzero : (-(j : Int)).toNat = 0 := by omega
    rw [hzero, Int.toNat_natCast, zpow_natCast]
    push_cast
    simp
  · obtain ⟨j, rfl⟩ : ∃ j : Nat, k = -(j : Int) := ⟨(-k).toNat, by omega⟩
    have hzero : (-(j : Int)).toNat = 0 := by omega
    rw [neg_neg, hzero, Int.toNat_natCast, zpow_neg, zpow_natCast]
    push_cast
    simp [div_eq_mul_inv]

/-- A ratio at an exponent, as a quotient of integers. -/
theorem scaled_ratio (num den : Nat) (q : Int) :
    ((num * Nat.pow 2 (-q).toNat : Nat) : ℚ) / (den * Nat.pow 2 q.toNat : Nat) =
      num / den * 2 ^ (-q) := by
  have hwhole := whole_ratio (by decide : 0 < 2) num (-q)
  rw [neg_neg] at hwhole
  calc ((num * Nat.pow 2 (-q).toNat : Nat) : ℚ) / (den * Nat.pow 2 q.toNat : Nat)
      = ((num * Nat.pow 2 (-q).toNat : Nat) : ℚ) / (Nat.pow 2 q.toNat : Nat) / den := by
        rw [Nat.cast_mul den, div_div, mul_comm (den : ℚ)]
    _ = num * 2 ^ (-q) / den := by
        rw [hwhole]
        rfl
    _ = num / den * 2 ^ (-q) := (div_mul_eq_mul_div _ _ _).symm

theorem nearest_scaled (num : Nat) {den : Nat} (hden : 0 < den) (q : Int) :
    Nearest (num / den * 2 ^ (-q))
      (roundDiv (num * Nat.pow 2 (-q).toNat) (den * Nat.pow 2 q.toNat)) := by
  rw [← scaled_ratio]
  exact nearest_roundDiv _ (Nat.mul_pos hden (Nat.two_pow_pos _))

/-- The nearest number to a ratio, from the exponent and the mantissa that its value determines. -/
theorem ofRatio_eq (negative : Bool) {num den : Nat} (hnum : 0 < num) (hden : 0 < den) {q : Int}
    {m : Nat} (hq : Fits (num / den) q) (hm : Nearest (num / den * 2 ^ (-q)) m) :
    ofRatio negative num den =
      ofFields negative ((q + 1074).toNat * 4503599627370496 + m) := by
  obtain rfl := (fits_exponentFor hnum hden).unique hq
  have hrounded := nearest_scaled num hden (exponentFor num den)
  rw [ofRatio, if_neg (by omega)]
  simp only [hrounded.unique hm]

/-- Ratios of one value have one nearest number. -/
theorem ofRatio_congr (negative : Bool) {num den num' den' : Nat} (hden : 0 < den)
    (hden' : 0 < den') (h : (num : ℚ) / den = num' / den') :
    ofRatio negative num den = ofRatio negative num' den' := by
  have hdenPos : (0 : ℚ) < den := by exact_mod_cast hden
  have hdenPos' : (0 : ℚ) < den' := by exact_mod_cast hden'
  have hzero : num = 0 ↔ num' = 0 := by
    have hiff : (num : ℚ) / den = 0 ↔ (num' : ℚ) / den' = 0 := by rw [h]
    rw [div_eq_zero_iff, div_eq_zero_iff, or_iff_left hdenPos.ne', or_iff_left hdenPos'.ne'] at hiff
    exact_mod_cast hiff
  by_cases hnum : num = 0
  · rw [hnum, hzero.mp hnum, ofRatio, ofRatio, if_pos rfl, if_pos rfl]
  · have hnum' : 0 < num' := Nat.pos_of_ne_zero (fun h' => hnum (hzero.mpr h'))
    have hq := fits_exponentFor hnum' hden'
    have hm := nearest_scaled num' hden' (exponentFor num' den')
    rw [ofRatio_eq negative hnum' hden' hq hm]
    rw [← h] at hq hm
    exact ofRatio_eq negative (Nat.pos_of_ne_zero hnum) hden hq hm

/-! ## Decimals -/

theorem decimalLength_pos (c : Nat) : 0 < decimalLength c :=
  List.length_pos_of_ne_nil Nat.toDigits_ne_nil

theorem lt_pow_decimalLength (c : Nat) : c < 10 ^ decimalLength c :=
  (Nat.length_toDigits_le_iff (by decide) (decimalLength_pos c)).mp (le_refl _)

theorem pow_decimalLength_le {c : Nat} (hc : 0 < c) : 10 ^ (decimalLength c - 1) ≤ c := by
  have hlength := decimalLength_pos c
  by_cases hone : decimalLength c = 1
  · rw [hone]
    exact hc
  · by_contra hlt
    have hshort : decimalLength c ≤ decimalLength c - 1 :=
      (Nat.length_toDigits_le_iff (by decide) (by omega)).mpr (not_le.mp hlt)
    omega

theorem ten_zpow_lt_iff {m n : Int} : (10 : ℚ) ^ m < 10 ^ n ↔ m < n :=
  zpow_lt_zpow_iff_right₀ (by norm_num)

/-- The powers of ten next to a decimal are told by its length. -/
theorem ten_zpow_le_decimal {c : Nat} (hc : 0 < c) (e : Int) :
    (10 : ℚ) ^ (decimalLength c + e - 1) ≤ c * 10 ^ e := by
  have hsplit : decimalLength c + e - 1 = ((decimalLength c - 1 : Nat) : Int) + e := by
    have := decimalLength_pos c
    omega
  rw [hsplit, zpow_add₀ (by norm_num), zpow_natCast]
  have hlow : ((10 ^ (decimalLength c - 1) : Nat) : ℚ) ≤ c := by
    exact_mod_cast pow_decimalLength_le hc
  push_cast at hlow
  exact mul_le_mul_of_nonneg_right hlow (zpow_nonneg (by norm_num) e)

theorem decimal_lt_ten_zpow (c : Nat) (e : Int) :
    (c : ℚ) * 10 ^ e < 10 ^ (decimalLength c + e) := by
  rw [zpow_add₀ (by norm_num), zpow_natCast]
  have hhigh : (c : ℚ) < ((10 ^ decimalLength c : Nat) : ℚ) := by
    exact_mod_cast lt_pow_decimalLength c
  push_cast at hhigh
  exact mul_lt_mul_of_pos_right hhigh (zpow_pos (by norm_num) e)

theorem decimalLength_add_le {c c' : Nat} (hc : 0 < c) {e e' : Int}
    (h : (c : ℚ) * 10 ^ e ≤ c' * 10 ^ e') : decimalLength c + e ≤ decimalLength c' + e' := by
  have hlt : (10 : ℚ) ^ (decimalLength c + e - 1) < 10 ^ (decimalLength c' + e') :=
    lt_of_le_of_lt ((ten_zpow_le_decimal hc e).trans h) (decimal_lt_ten_zpow c' e')
  have := ten_zpow_lt_iff.mp hlt
  omega

/-- **The nearest number to a decimal** is a matter of its value: trailing zeros do not count. -/
theorem ofDecimal_congr (negative : Bool) {c c' : Nat} {e e' : Int}
    (h : (c : ℚ) * 10 ^ e = c' * 10 ^ e') :
    ofDecimal negative c e = ofDecimal negative c' e' := by
  have hzero : c = 0 ↔ c' = 0 := by
    have hiff : (c : ℚ) * 10 ^ e = 0 ↔ (c' : ℚ) * 10 ^ e' = 0 := by rw [h]
    have hten : ∀ k : Int, (10 : ℚ) ^ k ≠ 0 := fun k => zpow_ne_zero k (by norm_num)
    rw [mul_eq_zero, mul_eq_zero, or_iff_left (hten e), or_iff_left (hten e')] at hiff
    exact_mod_cast hiff
  by_cases hc : c = 0
  · rw [hc, hzero.mp hc, ofDecimal, ofDecimal, if_pos rfl, if_pos rfl]
  · have hc' : c' ≠ 0 := fun h' => hc (hzero.mpr h')
    have hlength : (decimalLength c : Int) + e = decimalLength c' + e' :=
      le_antisymm (decimalLength_add_le (Nat.pos_of_ne_zero hc) h.le)
        (decimalLength_add_le (Nat.pos_of_ne_zero hc') h.ge)
    have hratio := ofRatio_congr negative (Nat.pow_pos (n := (-e).toNat) (by decide : 0 < 10))
      (Nat.pow_pos (n := (-e').toNat) (by decide : 0 < 10))
      (((whole_ratio (by decide) c e).trans h).trans (whole_ratio (by decide) c' e').symm)
    rw [ofDecimal, ofDecimal, if_neg hc, if_neg hc', hlength]
    exact if_congr Iff.rfl rfl (if_congr Iff.rfl rfl hratio)

end CallPlan.Binary64
