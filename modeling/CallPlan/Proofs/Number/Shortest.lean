import CallPlan.Number.Shortest
import CallPlan.Proofs.Number.Digits
import CallPlan.Proofs.Number.Midpoints

/-!
# The shortest decimal reads back

The search for the shortest decimal tries grids of decimals, at each the two next to the number,
and keeps one only if it is between the midpoints. On the grid of seventeen digits one of the two
always is: the digits of a number leave less than a unit of its last bit between them
(`exists_onGrid?_seventeen`). So the shortest decimal has a last digit that is not zero and reads
back as the number it was made from (`ofDecimal_shortest`).
-/

namespace CallPlan.Binary64

variable {biased : Fin 2047} {fraction : Fin 4503599627370496}

/-! ## The interval in integers -/

/-- A decimal is compared with a ratio by multiplying out. -/
theorem decimal_le_ratio_iff (c : Nat) (k : Int) (n : Nat) {den : Nat} (hden : 0 < den) :
    (c : ℚ) * 10 ^ k ≤ n / den ↔
      c * Nat.pow 10 k.toNat * den ≤ n * Nat.pow 10 (-k).toNat := by
  have hpos : (0 : ℚ) < den := by exact_mod_cast hden
  have hunit : (0 : ℚ) < (Nat.pow 10 (-k).toNat : Nat) := by
    exact_mod_cast Nat.pow_pos (by decide)
  have hwhole := whole_ratio (by decide : 0 < 10) c k
  rw [Nat.cast_ofNat] at hwhole
  rw [← hwhole, div_le_div_iff₀ hunit hpos]
  exact_mod_cast Iff.rfl

theorem ratio_le_decimal_iff (c : Nat) (k : Int) (n : Nat) {den : Nat} (hden : 0 < den) :
    (n : ℚ) / den ≤ c * 10 ^ k ↔
      n * Nat.pow 10 (-k).toNat ≤ c * Nat.pow 10 k.toNat * den := by
  have hpos : (0 : ℚ) < den := by exact_mod_cast hden
  have hunit : (0 : ℚ) < (Nat.pow 10 (-k).toNat : Nat) := by
    exact_mod_cast Nat.pow_pos (by decide)
  have hwhole := whole_ratio (by decide : 0 < 10) c k
  rw [Nat.cast_ofNat] at hwhole
  rw [← hwhole, div_le_div_iff₀ hpos hunit]
  exact_mod_cast Iff.rfl

theorem den_pos (biased : Fin 2047) (fraction : Fin 4503599627370496) :
    0 < (interval biased fraction).den :=
  Nat.pow_pos (by decide)

theorem interval_ratio (n : Nat) (biased : Fin 2047) (fraction : Fin 4503599627370496) :
    ((n * Nat.pow 2 (scale biased - 2).toNat : Nat) : ℚ) / (interval biased fraction).den =
      n / 4 * 2 ^ scale biased := by
  have hquarter : (2 : ℚ) ^ scale biased = 4 * 2 ^ (scale biased - 2) := by
    have hadd := two_zpow_add (scale biased - 2) 2
    rw [Nat.cast_ofNat, sub_add_cancel] at hadd
    rw [hadd]
    norm_num
  have hwhole := whole_ratio (by decide : 0 < 2) n (scale biased - 2)
  rw [Nat.cast_ofNat] at hwhole
  rw [hquarter]
  exact hwhole.trans (by ring)

theorem low_eq (hmantissa : 0 < mantissa biased fraction) :
    ((interval biased fraction).low : ℚ) / (interval biased fraction).den =
      lower biased fraction := by
  refine (interval_ratio _ biased fraction).trans ?_
  unfold lower
  split
  · rw [Nat.cast_sub (by omega)]
    push_cast
    ring
  · rw [Nat.cast_sub (by omega)]
    push_cast
    ring

theorem value_eq : ((interval biased fraction).value : ℚ) / (interval biased fraction).den =
    size biased fraction := by
  refine (interval_ratio _ biased fraction).trans ?_
  unfold size
  push_cast
  ring

theorem high_eq : ((interval biased fraction).high : ℚ) / (interval biased fraction).den =
    upper biased fraction := by
  refine (interval_ratio _ biased fraction).trans ?_
  unfold upper
  push_cast
  ring

theorem holds_iff (hmantissa : 0 < mantissa biased fraction) (c : Nat) (k : Int) :
    (interval biased fraction).holds c k = true ↔ Rounds biased fraction (c * 10 ^ k) := by
  have hden := den_pos biased fraction
  have hlow := ratio_le_decimal_iff c k (interval biased fraction).low hden
  have hlow' := decimal_le_ratio_iff c k (interval biased fraction).low hden
  have hhigh := decimal_le_ratio_iff c k (interval biased fraction).high hden
  have hhigh' := ratio_le_decimal_iff c k (interval biased fraction).high hden
  rw [low_eq hmantissa] at hlow hlow'
  rw [high_eq] at hhigh hhigh'
  have hclosed : (interval biased fraction).closed = true ↔ mantissa biased fraction % 2 = 0 := by
    simp [interval]
  unfold Interval.holds
  split
  · next heven =>
    rw [Bool.and_eq_true, decide_eq_true_eq, decide_eq_true_eq, ← hlow, ← hhigh]
    exact ⟨fun h => ⟨h.1, h.2, fun _ => hclosed.mp heven⟩, fun h => ⟨h.above, h.below⟩⟩
  · next hodd =>
    rw [Bool.and_eq_true, decide_eq_true_eq, decide_eq_true_eq, ← not_le, ← not_le, ← hlow',
      ← hhigh', not_le, not_le]
    constructor
    · rintro ⟨habove, hbelow⟩
      exact .of_lt habove hbelow
    · intro h
      have hodd' : ¬ mantissa biased fraction % 2 = 0 := fun heven => hodd (hclosed.mpr heven)
      exact ⟨lt_of_le_of_ne h.above fun heq => hodd' (h.even (.inl heq.symm)),
        lt_of_le_of_ne h.below fun heq => hodd' (h.even (.inr heq))⟩

/-! ## The grids -/

/-- A quotient of at least one is bounded by the powers of ten next to its integer part. -/
theorem ratio_bounds {a b : Nat} (hb : 0 < b) (hle : b ≤ a) :
    (10 : ℚ) ^ ((decimalLength (a / b) : Int) - 1) ≤ a / b ∧
      (a : ℚ) / b < 10 ^ (decimalLength (a / b) : Int) := by
  have hpos : (0 : ℚ) < b := by exact_mod_cast hb
  have hquotient : 0 < a / b := Nat.div_pos hle hb
  have hlength := decimalLength_pos (a / b)
  have hexp : (decimalLength (a / b) : Int) - 1 = (decimalLength (a / b) - 1 : Nat) := by omega
  rw [hexp, zpow_natCast, zpow_natCast, le_div_iff₀ hpos, div_lt_iff₀ hpos]
  constructor
  · exact_mod_cast (Nat.le_div_iff_mul_le hb).mp (pow_decimalLength_le hquotient)
  · exact_mod_cast (Nat.div_lt_iff_lt_mul hb).mp (lt_pow_decimalLength (a / b))

theorem magnitude_bounds {i : Interval} (hden : 0 < i.den) (hvalue : 0 < i.value) :
    (10 : ℚ) ^ i.magnitude ≤ i.value / i.den ∧
      (i.value : ℚ) / i.den ≤ 10 ^ (i.magnitude + 1) := by
  unfold Interval.magnitude
  split
  · next hle =>
    obtain ⟨hlow, hhigh⟩ := ratio_bounds hden hle
    rw [sub_add_cancel]
    exact ⟨hlow, hhigh.le⟩
  · next hlt =>
    obtain ⟨hlow, hhigh⟩ := ratio_bounds hvalue (show i.value ≤ i.den by omega)
    have hinv : (i.value : ℚ) / i.den = (i.den / i.value : ℚ)⁻¹ := (inv_div _ _).symm
    have hpos : (0 : ℚ) < i.den / i.value :=
      div_pos (by exact_mod_cast hden) (by exact_mod_cast hvalue)
    constructor
    · rw [hinv, zpow_neg]
      exact inv_anti₀ hpos hhigh.le
    · rw [hinv, show -(decimalLength (i.den / i.value) : Int) + 1 =
        -((decimalLength (i.den / i.value) : Int) - 1) by omega, zpow_neg]
      exact inv_anti₀ (zpow_pos (by norm_num) _) hlow

/-- The decimal of a grid just below a value. -/
def Interval.floorOn (i : Interval) (n : Nat) : Nat :=
  i.value * Nat.pow 10 (-(i.magnitude - n + 1)).toNat /
    (Nat.pow 10 (i.magnitude - n + 1).toNat * i.den)

/-- Both ends of a step of the grid are kept only if they read back. -/
theorem onGrid?_eq (i : Interval) (n : Nat) :
    i.onGrid? n = match i.holds (i.floorOn n) (i.magnitude - n + 1),
        i.holds (i.floorOn n + 1) (i.magnitude - n + 1) with
      | true, true => some ⟨if i.prefersAbove (i.floorOn n) (i.magnitude - n + 1)
          then i.floorOn n + 1 else i.floorOn n, i.magnitude - n + 1⟩
      | true, false => some ⟨i.floorOn n, i.magnitude - n + 1⟩
      | false, true => some ⟨i.floorOn n + 1, i.magnitude - n + 1⟩
      | false, false => none :=
  rfl

theorem onGrid?_eq_some {i : Interval} {n : Nat} {s : Shortest} (h : i.onGrid? n = some s) :
    i.holds s.digits s.exponent = true ∧ s.digits ≤ i.floorOn n + 1 := by
  rw [onGrid?_eq] at h
  split at h
  · next hfloor hnext =>
    cases h
    simp only
    split
    · exact ⟨hnext, le_refl _⟩
    · exact ⟨hfloor, Nat.le_succ _⟩
  · next hfloor _ =>
    cases h
    exact ⟨hfloor, Nat.le_succ _⟩
  · next _ hnext =>
    cases h
    exact ⟨hnext, le_refl _⟩
  · cases h

theorem exists_onGrid? {i : Interval} {n : Nat}
    (h : i.holds (i.floorOn n) (i.magnitude - n + 1) = true ∨
      i.holds (i.floorOn n + 1) (i.magnitude - n + 1) = true) : ∃ s, i.onGrid? n = some s := by
  rw [onGrid?_eq]
  rcases h with h | h
  · rw [h]
    split <;> simp_all
  · rw [h]
    split <;> simp_all

theorem floorOn_le {i : Interval} (hden : 0 < i.den) (n : Nat) :
    (i.floorOn n : ℚ) * 10 ^ (i.magnitude - n + 1) ≤ i.value / i.den := by
  rw [decimal_le_ratio_iff _ _ _ hden, mul_assoc]
  exact Nat.div_mul_le_self _ _

theorem lt_floorOn_add_one {i : Interval} (hden : 0 < i.den) (n : Nat) :
    (i.value : ℚ) / i.den < (i.floorOn n + 1 : Nat) * 10 ^ (i.magnitude - n + 1) := by
  rw [← not_le, decimal_le_ratio_iff _ _ _ hden, not_le, mul_assoc]
  exact Nat.lt_mul_of_div_lt (Nat.lt_succ_self _) (Nat.mul_pos (Nat.pow_pos (by decide)) hden)

/-- A grid of `n` digits has no more digits than that before the value. -/
theorem floorOn_le_pow {i : Interval} (hden : 0 < i.den) (hvalue : 0 < i.value) (n : Nat) :
    i.floorOn n ≤ 10 ^ n := by
  have hpos : (0 : ℚ) < 10 ^ (i.magnitude - n + 1) := zpow_pos (by norm_num) _
  have hsplit : (10 : ℚ) ^ (i.magnitude + 1) = 10 ^ n * 10 ^ (i.magnitude - n + 1) := by
    rw [← zpow_natCast, ← zpow_add₀ (by norm_num)]
    congr 1
    omega
  have hle := (floorOn_le hden n).trans (magnitude_bounds hden hvalue).2
  rw [hsplit] at hle
  exact_mod_cast le_of_mul_le_mul_right hle hpos

/-- A step of the grid of seventeen digits is shorter than the interval of a number. -/
theorem step_lt (hmantissa : 0 < mantissa biased fraction) :
    (10 : ℚ) ^ ((interval biased fraction).magnitude - 17 + 1) <
      upper biased fraction - lower biased fraction := by
  have hvalue : 0 < (interval biased fraction).value :=
    Nat.mul_pos (by omega) (Nat.two_pow_pos _)
  have hlow := (magnitude_bounds (den_pos biased fraction) hvalue).1
  rw [value_eq] at hlow
  have hsplit : (10 : ℚ) ^ (interval biased fraction).magnitude =
      10 ^ 16 * 10 ^ ((interval biased fraction).magnitude - 17 + 1) := by
    rw [← zpow_natCast, ← zpow_add₀ (by norm_num)]
    congr 1
    omega
  rw [hsplit] at hlow
  have hpos := two_zpow_pos (scale biased)
  have hmax : (mantissa biased fraction : ℚ) + 1 ≤ 9007199254740992 := by
    exact_mod_cast mantissa_lt biased fraction
  unfold size at hlow
  unfold upper lower
  generalize (10 : ℚ) ^ ((interval biased fraction).magnitude - 17 + 1) = t at *
  generalize (2 : ℚ) ^ scale biased = p at *
  split
  · next hpower =>
    have hm : (mantissa biased fraction : ℚ) = 4503599627370496 := by
      have hnat : mantissa biased fraction = 4503599627370496 := by
        unfold mantissa
        rw [if_neg (by omega), hpower.1]
      exact_mod_cast hnat
    rw [hm] at hlow ⊢
    linarith
  · have hbound : (mantissa biased fraction : ℚ) * p ≤ 9007199254740992 * p :=
      mul_le_mul_of_nonneg_right (by linarith) hpos.le
    linarith

/-- **Seventeen digits suffice** for every number. -/
theorem exists_onGrid?_seventeen (hmantissa : 0 < mantissa biased fraction) :
    ∃ s, (interval biased fraction).onGrid? 17 = some s := by
  have hden := den_pos biased fraction
  have hfloor := floorOn_le hden 17
  have hnext := lt_floorOn_add_one hden 17
  rw [value_eq] at hfloor hnext
  have hstep := step_lt hmantissa
  refine exists_onGrid? ?_
  rw [holds_iff hmantissa, holds_iff hmantissa]
  -- Were both ends of the step outside, it would be as long as the interval.
  by_contra hout
  rw [not_or] at hout
  have hbelow : ((interval biased fraction).floorOn 17 : ℚ) *
      10 ^ ((interval biased fraction).magnitude - (17 : Nat) + 1) ≤ lower biased fraction := by
    by_contra hlt
    exact hout.1 (.of_lt (not_le.mp hlt) (hfloor.trans_lt size_lt_upper))
  have habove : upper biased fraction ≤ ((interval biased fraction).floorOn 17 + 1 : Nat) *
      10 ^ ((interval biased fraction).magnitude - (17 : Nat) + 1) := by
    by_contra hlt
    exact hout.2 (.of_lt (lower_lt_size.trans hnext) (not_le.mp hlt))
  push_cast at hbelow habove
  linarith

/-! ## Trailing zeros -/

theorem Shortest.strip_value (fuel : Nat) (s : Shortest) :
    ((s.strip fuel).digits : ℚ) * 10 ^ (s.strip fuel).exponent = s.digits * 10 ^ s.exponent := by
  induction fuel generalizing s with
  | zero => rfl
  | succ fuel ih =>
      rw [strip]
      split
      · next h =>
        have hdigits : s.digits = s.digits / 10 * 10 := by omega
        rw [ih, zpow_add_one₀ (by norm_num)]
        calc ((s.digits / 10 : Nat) : ℚ) * (10 ^ s.exponent * 10)
            = ((s.digits / 10 * 10 : Nat) : ℚ) * 10 ^ s.exponent := by
              push_cast
              ring
          _ = s.digits * 10 ^ s.exponent := by rw [← hdigits]
      · rfl

theorem Shortest.strip_trimmed {fuel : Nat} {s : Shortest} (hpos : 0 < s.digits)
    (hsmall : s.digits < 10 ^ (fuel + 1)) : (s.strip fuel).digits % 10 ≠ 0 := by
  induction fuel generalizing s with
  | zero =>
      change s.digits % 10 ≠ 0
      omega
  | succ fuel ih =>
      rw [strip]
      split
      · next h =>
        refine ih ?_ ?_
        · change 0 < s.digits / 10
          omega
        · change s.digits / 10 < 10 ^ (fuel + 1)
          rw [Nat.pow_succ] at hsmall
          omega
      · next h => omega

/-- A decimal without trailing zeros has the greatest exponent of all that have its value. -/
theorem exponent_le_of_trimmed {c c' : Nat} {e e' : Int} (hc : c % 10 ≠ 0)
    (h : (c : ℚ) * 10 ^ e = c' * 10 ^ e') : e' ≤ e := by
  by_contra hlt
  obtain ⟨n, hn⟩ : ∃ n : Nat, e' = e + (n + 1 : Nat) := ⟨(e' - e - 1).toNat, by omega⟩
  have hpos : (10 : ℚ) ^ e ≠ 0 := zpow_ne_zero e (by norm_num)
  rw [hn, zpow_add₀ (by norm_num), zpow_natCast, mul_comm ((10 : ℚ) ^ e), ← mul_assoc] at h
  have hcast : (c : ℚ) = c' * 10 ^ (n + 1) := mul_right_cancel₀ hpos h
  have hnat : c = c' * 10 ^ (n + 1) := by exact_mod_cast hcast
  rw [Nat.pow_succ, ← Nat.mul_assoc] at hnat
  omega

/-! ## The shortest decimal -/

/-- What the search leaves: a decimal between the midpoints without trailing zeros. -/
theorem shortest_spec (hmantissa : 0 < mantissa biased fraction) :
    Rounds biased fraction
      ((shortest biased fraction).digits * 10 ^ (shortest biased fraction).exponent) ∧
      (shortest biased fraction).digits % 10 ≠ 0 := by
  obtain ⟨i, hi⟩ : ∃ i, i = interval biased fraction := ⟨_, rfl⟩
  have hden : 0 < i.den := hi ▸ den_pos biased fraction
  have hvalue : 0 < i.value := hi ▸ Nat.mul_pos (by omega) (Nat.two_pow_pos _)
  -- Some grid has a decimal, at the latest that of seventeen digits.
  obtain ⟨s, hs⟩ : ∃ s, (List.range 17).findSome? (fun n => i.onGrid? (n + 1)) = some s := by
    obtain ⟨s, hs⟩ := exists_onGrid?_seventeen hmantissa
    rw [← hi] at hs
    rw [← Option.isSome_iff_exists, List.findSome?_isSome_iff]
    exact ⟨16, by decide, by rw [hs]; rfl⟩
  obtain ⟨n, hn, hgrid⟩ := List.exists_of_findSome?_eq_some hs
  rw [List.mem_range] at hn
  obtain ⟨hholds, hdigits⟩ := onGrid?_eq_some hgrid
  rw [hi, holds_iff hmantissa] at hholds
  -- Zero is never between the midpoints, so there is a digit that stripping ends at.
  have hpos : 0 < s.digits := by
    by_contra hzero
    have hnone := two_zpow_le_of_rounds hmantissa hholds
    rw [Nat.eq_zero_of_not_pos hzero, Nat.cast_zero, zero_mul] at hnone
    exact absurd hnone (not_le.mpr (two_zpow_pos _))
  have hsmall : s.digits < 10 ^ (17 + 1) := by
    have hfloor := floorOn_le_pow hden hvalue (n + 1)
    have hpow : 10 ^ (n + 1) ≤ 10 ^ 17 := Nat.pow_le_pow_right (by decide) (by omega)
    omega
  have hshortest : shortest biased fraction = s.strip 17 := by
    unfold shortest
    simp only [← hi, hs, Option.getD_some]
  rw [hshortest]
  refine ⟨?_, Shortest.strip_trimmed hpos hsmall⟩
  rw [Shortest.strip_value]
  exact hholds

theorem shortest_pos (hmantissa : 0 < mantissa biased fraction) :
    0 < (shortest biased fraction).digits := by
  have htrimmed := (shortest_spec hmantissa).2
  omega

/-- **The shortest decimal reads back** as the number it was made from. -/
theorem ofDecimal_shortest (negative : Bool) (hmantissa : 0 < mantissa biased fraction) :
    ofDecimal negative (shortest biased fraction).digits (shortest biased fraction).exponent =
      .finite negative biased fraction :=
  ofDecimal_of_rounds negative hmantissa (shortest_pos hmantissa) (shortest_spec hmantissa).1

/-- A decimal that is read as a finite number does not begin farther up than a power of ten. -/
theorem decimalLength_add_le_of_isFinite {negative : Bool} {digits : Nat} {exponent : Int}
    (hpos : 0 < digits) (h : (ofDecimal negative digits exponent).isFinite = true) :
    decimalLength digits + exponent ≤ 310 := by
  unfold ofDecimal at h
  rw [if_neg (by omega)] at h
  split at h
  · cases h
  · next hle => exact Int.not_lt.mp hle

/-- The integer that the shortest decimal is, if it is one, is not too long. -/
theorem isWritable_shortest (hmantissa : 0 < mantissa biased fraction)
    (hwhole : 0 ≤ (shortest biased fraction).exponent) :
    Numeral.isWritable ((shortest biased fraction).digits *
      Nat.pow 10 (shortest biased fraction).exponent.toNat : Nat) = true := by
  obtain ⟨s, hs⟩ : ∃ s, s = shortest biased fraction := ⟨_, rfl⟩
  have hlength : decimalLength s.digits + s.exponent ≤ 310 := by
    have hfinite : (ofDecimal false s.digits s.exponent).isFinite = true := by
      rw [hs, ofDecimal_shortest false hmantissa]
      rfl
    exact decimalLength_add_le_of_isFinite (hs ▸ shortest_pos hmantissa) hfinite
  rw [← hs] at hwhole ⊢
  have hdigits : s.digits < 10 ^ decimalLength s.digits :=
    (Nat.length_toDigits_le_iff (by decide) Nat.length_toDigits_pos).mp le_rfl
  have hmax : decimalLength s.digits + s.exponent.toNat ≤ Numeral.maxDigits := by
    unfold Numeral.maxDigits
    omega
  rw [Numeral.isWritable_iff, Int.natAbs_natCast]
  calc s.digits * Nat.pow 10 s.exponent.toNat
      < 10 ^ decimalLength s.digits * Nat.pow 10 s.exponent.toNat :=
        Nat.mul_lt_mul_of_pos_right hdigits (Nat.pow_pos (by decide))
    _ = 10 ^ (decimalLength s.digits + s.exponent.toNat) := (Nat.pow_add ..).symm
    _ ≤ 10 ^ Numeral.maxDigits := Nat.pow_le_pow_right (by decide) hmax

end CallPlan.Binary64
