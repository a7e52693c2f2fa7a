import CallPlan.Proofs.Number.Rounding

/-!
# Values that are rounded to a number

A number is the nearest one to every value between the midpoints to its two neighbours, the
midpoints included exactly if its mantissa is even (`Rounds`, `ofDecimal_of_rounds`). Below a power
of two the neighbour is only half as far away; a value there has the next smaller exponent, and
rounding carries into the power of two (`Rounds.fits_below`).
-/

namespace CallPlan.Binary64

variable {biased : Fin 2047} {fraction : Fin 4503599627370496}

/-! ## Fields -/

theorem mantissa_lt (biased : Fin 2047) (fraction : Fin 4503599627370496) :
    mantissa biased fraction < 9007199254740992 := by
  unfold mantissa
  split <;> omega

theorem mantissa_eq_zero_iff : mantissa biased fraction = 0 ↔ biased = 0 ∧ fraction = 0 := by
  unfold mantissa
  constructor
  · intro h
    split at h
    · next hbiased => exact ⟨Fin.ext hbiased, Fin.ext h⟩
    · omega
  · rintro ⟨rfl, rfl⟩
    rfl

/-- The mantissa and the exponent make up the fields as one integer. -/
theorem fields_eq (biased : Fin 2047) (fraction : Fin 4503599627370496) :
    (scale biased + 1074).toNat * 4503599627370496 + mantissa biased fraction =
      biased.val * 4503599627370496 + fraction.val := by
  unfold scale mantissa
  split <;> omega

theorem ofFields_eq (negative : Bool) (biased : Fin 2047) (fraction : Fin 4503599627370496) :
    ofFields negative (biased.val * 4503599627370496 + fraction.val) =
      .finite negative biased fraction := by
  have hhigh : (biased.val * 4503599627370496 + fraction.val) / 4503599627370496 = biased.val := by
    omega
  have hlow :
      (biased.val * 4503599627370496 + fraction.val) % 4503599627370496 = fraction.val := by
    omega
  unfold ofFields
  simp only [hhigh, hlow, dif_pos biased.isLt]

/-! ## The values that are rounded to a number -/

/-- The value of a number without its sign. -/
def size (biased : Fin 2047) (fraction : Fin 4503599627370496) : ℚ :=
  mantissa biased fraction * 2 ^ scale biased

/-- The midpoint to the number below. -/
def lower (biased : Fin 2047) (fraction : Fin 4503599627370496) : ℚ :=
  (mantissa biased fraction - if fraction.val = 0 ∧ biased.val > 1 then 1 / 4 else 1 / 2) *
    2 ^ scale biased

/-- The midpoint to the number above. -/
def upper (biased : Fin 2047) (fraction : Fin 4503599627370496) : ℚ :=
  (mantissa biased fraction + 1 / 2) * 2 ^ scale biased

/-- The value is between the midpoints, and on one of them only if the mantissa is even. -/
structure Rounds (biased : Fin 2047) (fraction : Fin 4503599627370496) (r : ℚ) : Prop where
  above : lower biased fraction ≤ r
  below : r ≤ upper biased fraction
  even : r = lower biased fraction ∨ r = upper biased fraction → mantissa biased fraction % 2 = 0

theorem Rounds.of_lt {r : ℚ} (hlow : lower biased fraction < r)
    (hhigh : r < upper biased fraction) : Rounds biased fraction r :=
  ⟨hlow.le, hhigh.le, fun h => h.elim (fun h => absurd h hlow.ne') fun h => absurd h hhigh.ne⟩

theorem two_zpow_pos (q : Int) : (0 : ℚ) < 2 ^ q :=
  zpow_pos (by norm_num) q

theorem two_zpow_add (q : Int) (n : Nat) : (2 : ℚ) ^ (q + n) = 2 ^ n * 2 ^ q := by
  rw [zpow_add₀ (by norm_num), zpow_natCast, mul_comm]

theorem half_le_sub_lower :
    (mantissa biased fraction - 1 / 2) * 2 ^ scale biased ≤ lower biased fraction := by
  unfold lower
  refine mul_le_mul_of_nonneg_right ?_ (two_zpow_pos _).le
  split <;> linarith

theorem lower_lt_size : lower biased fraction < size biased fraction := by
  unfold lower size
  refine mul_lt_mul_of_pos_right ?_ (two_zpow_pos _)
  split <;> linarith

theorem size_lt_upper : size biased fraction < upper biased fraction := by
  unfold upper size
  exact mul_lt_mul_of_pos_right (by linarith) (two_zpow_pos _)

theorem rounds_size : Rounds biased fraction (size biased fraction) :=
  .of_lt lower_lt_size size_lt_upper

theorem Nearest.of_scaled {r : ℚ} {q : Int} {m : Nat} (below : r ≤ (m + 1 / 2) * 2 ^ q)
    (above : (m - 1 / 2) * 2 ^ q ≤ r)
    (even : r = (m + 1 / 2) * 2 ^ q ∨ r = (m - 1 / 2) * 2 ^ q → m % 2 = 0) :
    Nearest (r * 2 ^ (-q)) m := by
  have hpos := two_zpow_pos q
  rw [zpow_neg, ← div_eq_mul_inv]
  refine ⟨(div_le_iff₀ hpos).mpr below, (le_div_iff₀ hpos).mpr above, ?_⟩
  rwa [div_eq_iff hpos.ne', div_eq_iff hpos.ne']

/-- Above the power of two of its exponent, and for the least exponent everywhere, a value has the
exponent of the number it is rounded to. -/
theorem Rounds.fits {r : ℚ} (h : Rounds biased fraction r)
    (hstep : scale biased = -1074 ∨ (2 : ℚ) ^ (scale biased + 52) ≤ r) :
    Fits r (scale biased) ∧ Nearest (r * 2 ^ (-scale biased)) (mantissa biased fraction) := by
  have hleast : -1074 ≤ scale biased := by
    unfold scale
    omega
  have hmantissa : (mantissa biased fraction : ℚ) + 1 ≤ 9007199254740992 := by
    exact_mod_cast mantissa_lt biased fraction
  have hbelow : r < 2 ^ (scale biased + 53) := by
    refine lt_of_le_of_lt h.below ?_
    rw [show scale biased + 53 = scale biased + (53 : Nat) from rfl, two_zpow_add]
    exact mul_lt_mul_of_pos_right (by norm_num; linarith) (two_zpow_pos _)
  refine ⟨⟨hleast, hbelow, hstep⟩, .of_scaled h.below (half_le_sub_lower.trans h.above) ?_⟩
  -- A value halfway between two integers is a midpoint, also below, where a midpoint can be nearer.
  rintro (hr | hr)
  · exact h.even (.inr hr)
  · exact h.even (.inl (le_antisymm (hr.trans_le half_le_sub_lower) h.above))

theorem mantissa_of_normal (h : biased.val > 1) :
    mantissa biased fraction = 4503599627370496 + fraction.val := by
  unfold mantissa
  rw [if_neg (by omega)]

/-- Only a power of two is the nearest number to a value below the power of two of its exponent. -/
theorem Rounds.fraction_eq_zero {r : ℚ} (h : Rounds biased fraction r) (hbiased : biased.val > 1)
    (hlow : r < 2 ^ 52 * 2 ^ scale biased) : fraction.val = 0 := by
  by_contra hne
  have hmantissa : mantissa biased fraction = 4503599627370496 + fraction.val :=
    mantissa_of_normal hbiased
  have hlarge : (4503599627370497 : ℚ) ≤ mantissa biased fraction := by
    exact_mod_cast (by omega : 4503599627370497 ≤ mantissa biased fraction)
  have hmid : (2 : ℚ) ^ 52 * 2 ^ scale biased ≤
      (mantissa biased fraction - 1 / 2) * 2 ^ scale biased :=
    mul_le_mul_of_nonneg_right (by norm_num; linarith) (two_zpow_pos _).le
  exact absurd (hmid.trans (half_le_sub_lower.trans h.above)) (not_le.mpr hlow)

theorem lower_of_power (hbiased : biased.val > 1) (hfraction : fraction.val = 0) :
    lower biased fraction = (4503599627370496 - 1 / 4) * 2 ^ scale biased := by
  rw [lower, if_pos ⟨hfraction, hbiased⟩, mantissa_of_normal hbiased, hfraction]
  norm_num

/-- There the next smaller exponent is taken, and rounding carries. -/
theorem Rounds.fits_below {r : ℚ} (h : Rounds biased fraction r) (hscale : scale biased ≠ -1074)
    (hlow : r < (2 : ℚ) ^ (scale biased + 52)) :
    fraction.val = 0 ∧ Fits r (scale biased - 1) ∧
      Nearest (r * 2 ^ (-(scale biased - 1))) 9007199254740992 := by
  have hbiased : biased.val > 1 := by
    unfold scale at hscale
    omega
  have hleast : -1074 ≤ scale biased - 1 := by
    unfold scale at hscale ⊢
    omega
  rw [show scale biased + 52 = scale biased + (52 : Nat) from rfl, two_zpow_add] at hlow
  have hfraction := h.fraction_eq_zero hbiased hlow
  have habove := h.above
  rw [lower_of_power hbiased hfraction] at habove
  have hhalf : (2 : ℚ) ^ scale biased = 2 * 2 ^ (scale biased - 1) := by
    have hadd := two_zpow_add (scale biased - 1) 1
    rwa [pow_one, Nat.cast_one, sub_add_cancel] at hadd
  rw [hhalf] at hlow habove
  have hpos := two_zpow_pos (scale biased - 1)
  refine ⟨hfraction, ⟨hleast, ?_, .inr ?_⟩, .of_scaled ?_ ?_ fun _ => by decide⟩
  · rw [show scale biased - 1 + 53 = scale biased - 1 + (53 : Nat) from rfl, two_zpow_add]
    linarith
  · rw [show scale biased - 1 + 52 = scale biased - 1 + (52 : Nat) from rfl, two_zpow_add]
    linarith
  · push_cast
    linarith
  · push_cast
    linarith

theorem ofRatio_of_rounds (negative : Bool) {num den : Nat} (hnum : 0 < num) (hden : 0 < den)
    (h : Rounds biased fraction (num / den)) :
    ofRatio negative num den = .finite negative biased fraction := by
  by_cases hstep : scale biased = -1074 ∨ (2 : ℚ) ^ (scale biased + 52) ≤ num / den
  · obtain ⟨hfits, hnearest⟩ := h.fits hstep
    rw [ofRatio_eq negative hnum hden hfits hnearest, fields_eq, ofFields_eq]
  · rw [not_or, not_le] at hstep
    obtain ⟨hfraction, hfits, hnearest⟩ := h.fits_below hstep.1 hstep.2
    have hcarry : (scale biased - 1 + 1074).toNat * 4503599627370496 + 9007199254740992 =
        biased.val * 4503599627370496 + fraction.val := by
      have hscale := hstep.1
      unfold scale at hscale ⊢
      omega
    rw [ofRatio_eq negative hnum hden hfits hnearest, hcarry, ofFields_eq]

/-- A positive value is rounded to one number only. -/
theorem Rounds.unique {biased' : Fin 2047} {fraction' : Fin 4503599627370496} {r : ℚ} (hr : 0 < r)
    (h : Rounds biased fraction r) (h' : Rounds biased' fraction' r) :
    biased = biased' ∧ fraction = fraction' := by
  have hpos : 0 < r.num := Rat.num_pos.mpr hr
  have hratio : (r.num.natAbs : ℚ) / r.den = r := by
    rw [Nat.cast_natAbs, abs_of_pos hpos]
    exact r.num_div_den
  rw [← hratio] at h h'
  have hsame := (ofRatio_of_rounds false (by omega) r.den_pos h).symm.trans
    (ofRatio_of_rounds false (by omega) r.den_pos h')
  rw [finite.injEq] at hsame
  exact hsame.2

theorem two_zpow_le_of_rounds (hmantissa : 0 < mantissa biased fraction) {r : ℚ}
    (h : Rounds biased fraction r) : (2 : ℚ) ^ (-1075 : Int) ≤ r := by
  have hone : (1 : ℚ) ≤ mantissa biased fraction := by exact_mod_cast hmantissa
  have hscale : -1074 ≤ scale biased := by
    unfold scale
    omega
  calc (2 : ℚ) ^ (-1075 : Int) = 1 / 2 * 2 ^ (-1074 : Int) := by
        rw [show (-1074 : Int) = -1075 + (1 : Nat) from rfl, two_zpow_add]
        ring
    _ ≤ 1 / 2 * 2 ^ scale biased :=
        mul_le_mul_of_nonneg_left (two_zpow_le_iff.mpr hscale) (by norm_num)
    _ ≤ (mantissa biased fraction - 1 / 2) * 2 ^ scale biased :=
        mul_le_mul_of_nonneg_right (by linarith) (two_zpow_pos _).le
    _ ≤ lower biased fraction := half_le_sub_lower
    _ ≤ r := h.above

theorem lt_two_zpow_of_rounds {r : ℚ} (h : Rounds biased fraction r) :
    r < (2 : ℚ) ^ (1024 : Int) := by
  have hmantissa : (mantissa biased fraction : ℚ) + 1 ≤ 9007199254740992 := by
    exact_mod_cast mantissa_lt biased fraction
  have hscale : scale biased ≤ 971 := by
    unfold scale
    omega
  calc r ≤ upper biased fraction := h.below
    _ < 2 ^ 53 * 2 ^ scale biased :=
        mul_lt_mul_of_pos_right (by norm_num; linarith) (two_zpow_pos _)
    _ ≤ 2 ^ 53 * 2 ^ (971 : Int) :=
        mul_le_mul_of_nonneg_left (two_zpow_le_iff.mpr hscale) (by norm_num)
    _ = 2 ^ (1024 : Int) := (two_zpow_add 971 53).symm

/-- The range of the format in powers of ten. -/
theorem ten_zpow_lt_least : (10 : ℚ) ^ (-330 : Int) < 2 ^ (-1075 : Int) := by
  have hnat : 2 ^ 1075 < 10 ^ 330 := by decide +kernel
  have hpow : (2 : ℚ) ^ 1075 < 10 ^ 330 := by exact_mod_cast hnat
  rw [zpow_neg, zpow_neg]
  exact inv_strictAnti₀ (by positivity) hpow

theorem two_zpow_lt_greatest : (2 : ℚ) ^ (1024 : Int) < 10 ^ (309 : Int) := by
  have hnat : 2 ^ 1024 < 10 ^ 309 := by decide +kernel
  exact_mod_cast hnat

/-- A decimal that is rounded to a number is inside the range that is looked at closely. -/
theorem decimalLength_add_of_rounds (hmantissa : 0 < mantissa biased fraction) {c : Nat}
    (hc : 0 < c) {e : Int} (h : Rounds biased fraction (c * 10 ^ e)) :
    -330 ≤ decimalLength c + e ∧ decimalLength c + e ≤ 310 := by
  have hlow : (10 : ℚ) ^ (-330 : Int) < 10 ^ (decimalLength c + e) :=
    calc (10 : ℚ) ^ (-330 : Int) < 2 ^ (-1075 : Int) := ten_zpow_lt_least
      _ ≤ c * 10 ^ e := two_zpow_le_of_rounds hmantissa h
      _ < 10 ^ (decimalLength c + e) := decimal_lt_ten_zpow c e
  have hhigh : (10 : ℚ) ^ (decimalLength c + e - 1) < 10 ^ (309 : Int) :=
    calc (10 : ℚ) ^ (decimalLength c + e - 1) ≤ c * 10 ^ e := ten_zpow_le_decimal hc e
      _ < 2 ^ (1024 : Int) := lt_two_zpow_of_rounds h
      _ < 10 ^ (309 : Int) := two_zpow_lt_greatest
  have hlow' := ten_zpow_lt_iff.mp hlow
  have hhigh' := ten_zpow_lt_iff.mp hhigh
  omega

/-- Every decimal between the midpoints is rounded to the number. -/
theorem ofDecimal_of_rounds (negative : Bool) (hmantissa : 0 < mantissa biased fraction) {c : Nat}
    (hc : 0 < c) {e : Int} (h : Rounds biased fraction (c * 10 ^ e)) :
    ofDecimal negative c e = .finite negative biased fraction := by
  have hrange := decimalLength_add_of_rounds hmantissa hc h
  rw [ofDecimal, if_neg hc.ne', if_neg (by omega), if_neg (by omega)]
  refine ofRatio_of_rounds negative (Nat.mul_pos hc (Nat.pow_pos (by decide)))
    (Nat.pow_pos (by decide)) ?_
  rwa [whole_ratio (by decide)]

end CallPlan.Binary64
