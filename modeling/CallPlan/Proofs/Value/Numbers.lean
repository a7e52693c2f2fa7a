import CallPlan.Proofs.Number.Decimal
import CallPlan.Proofs.Number.Written
import CallPlan.Proofs.Value.Expressible

/-!
# Canonical text of decimals

A whole decimal stands in canonical text as it is if it is not too long, another one as the
shortest decimal of its nearest binary number. So each has one number that its text shows
(`Decimal.compared?`), and two have one text exactly if they show one number
(`Shows.write_eq_iff`).

Decimals of one value show one number (`compared?_congr`), whatever zeros they are written with.
The converse holds of whole ones; of others only the nearest binary numbers are told apart
(`shown?_eq_iff`).
-/

namespace CallPlan

/-! ## Signs -/

/-- The sign of a number as a factor. -/
def signed (negative : Bool) (r : ℚ) : ℚ :=
  (if negative then -1 else 1) * r

theorem signed_eq_iff {negative negative' : Bool} {r r' : ℚ} (hr : 0 ≤ r) (hr' : 0 ≤ r') :
    signed negative r = signed negative' r' ↔ r = r' ∧ (r = 0 ∨ negative = negative') := by
  constructor
  · intro h
    cases negative <;> cases negative' <;>
      simp only [signed, if_true, if_false, Bool.false_eq_true] at h
    · exact ⟨by linarith, .inr rfl⟩
    · exact ⟨by linarith, .inl (by linarith)⟩
    · exact ⟨by linarith, .inl (by linarith)⟩
    · exact ⟨by linarith, .inr rfl⟩
  · rintro ⟨rfl, rfl | rfl⟩
    · simp [signed]
    · rfl

theorem signed_natAbs (n : Int) : signed (decide (n < 0)) n.natAbs = n := by
  unfold signed
  by_cases hn : n < 0
  · rw [if_pos (decide_eq_true hn), neg_one_mul, ← Int.cast_natCast, ← Int.cast_neg]
    exact congrArg _ (by omega)
  · rw [if_neg (by simpa using hn), one_mul, ← Int.cast_natCast]
    exact congrArg _ (by omega)

theorem signed_whole (negative : Bool) (c k : Nat) :
    signed negative (c * 10 ^ (k : Int)) =
      ((if negative then -((c : Int) * Nat.pow 10 k) else c * Nat.pow 10 k : Int) : ℚ) := by
  cases negative <;> simp [signed]

namespace Binary64

/-! ## Values of binary numbers -/

/-- The value of a finite number. -/
def value? : Binary64 → Option ℚ
  | .finite negative b f => some (signed negative (size b f))
  | _ => none

/-- The shortest decimal of a number without its sign, as a value. -/
def shownSize (b : Fin 2047) (f : Fin 4503599627370496) : ℚ :=
  if mantissa b f = 0 then 0 else (shortest b f).digits * 10 ^ (shortest b f).exponent

/-- The value that is shown for a finite number. -/
def shown? : Binary64 → Option ℚ
  | .finite negative b f => some (signed negative (shownSize b f))
  | _ => none

variable {b b' : Fin 2047} {f f' : Fin 4503599627370496}

theorem size_eq_zero_iff : size b f = 0 ↔ mantissa b f = 0 := by
  rw [size, mul_eq_zero, or_iff_left (two_zpow_pos _).ne', Nat.cast_eq_zero]

theorem size_nonneg : 0 ≤ size b f :=
  mul_nonneg (Nat.cast_nonneg _) (two_zpow_pos _).le

theorem shownSize_of_pos (h : 0 < mantissa b f) :
    shownSize b f = (shortest b f).digits * 10 ^ (shortest b f).exponent :=
  if_neg h.ne'

theorem shownSize_eq_zero_iff : shownSize b f = 0 ↔ mantissa b f = 0 := by
  unfold shownSize
  split
  · next h => exact ⟨fun _ => h, fun _ => rfl⟩
  · next h =>
    have hdigits := shortest_pos (Nat.pos_of_ne_zero h)
    rw [mul_eq_zero, or_iff_left (zpow_ne_zero _ (by norm_num)), Nat.cast_eq_zero]
    exact ⟨fun hzero => absurd hzero hdigits.ne', fun hzero => absurd hzero h⟩

theorem shownSize_nonneg : 0 ≤ shownSize b f := by
  unfold shownSize
  split
  · exact le_refl _
  · positivity

/-- What is zero for a zero only, and otherwise a value that is rounded to the number, tells all
numbers without a sign apart. -/
theorem inj_of_rounds {v : Fin 2047 → Fin 4503599627370496 → ℚ} (hnonneg : ∀ b f, 0 ≤ v b f)
    (hzero : ∀ b f, v b f = 0 ↔ mantissa b f = 0)
    (hrounds : ∀ b f, 0 < mantissa b f → Rounds b f (v b f)) :
    v b f = v b' f' ↔ b = b' ∧ f = f' := by
  constructor
  · intro h
    by_cases hm : mantissa b f = 0
    · have hm' := (hzero b' f').mp (h.symm.trans ((hzero b f).mpr hm))
      obtain ⟨rfl, rfl⟩ := mantissa_eq_zero_iff.mp hm
      obtain ⟨rfl, rfl⟩ := mantissa_eq_zero_iff.mp hm'
      exact ⟨rfl, rfl⟩
    · have hm' : mantissa b' f' ≠ 0 :=
        fun h' => hm ((hzero b f).mp (h.trans ((hzero b' f').mpr h')))
      have hpos : 0 < v b f := lt_of_le_of_ne (hnonneg b f) fun h' => hm ((hzero b f).mp h'.symm)
      have hrounds' := hrounds b' f' (Nat.pos_of_ne_zero hm')
      rw [← h] at hrounds'
      exact (hrounds b f (Nat.pos_of_ne_zero hm)).unique hpos hrounds'
  · rintro ⟨rfl, rfl⟩
    rfl

/-- No two numbers without a sign have one value. -/
theorem size_inj : size b f = size b' f' ↔ b = b' ∧ f = f' :=
  inj_of_rounds (fun _ _ => size_nonneg) (fun _ _ => size_eq_zero_iff) fun _ _ _ => rounds_size

/-- No two numbers without a sign are shown alike. -/
theorem shownSize_inj : shownSize b f = shownSize b' f' ↔ b = b' ∧ f = f' := by
  refine inj_of_rounds (fun _ _ => shownSize_nonneg) (fun _ _ => shownSize_eq_zero_iff) ?_
  intro b f hm
  rw [shownSize_of_pos hm]
  exact (shortest_spec hm).1

/-- Numbers are shown alike exactly if they have one value. -/
theorem shown?_eq_iff {x y : Binary64} : x.shown? = y.shown? ↔ x.value? = y.value? := by
  cases x <;> cases y <;> simp only [shown?, value?, reduceCtorEq, Option.some.injEq]
  rw [signed_eq_iff shownSize_nonneg shownSize_nonneg, signed_eq_iff size_nonneg size_nonneg,
    shownSize_inj, size_inj, shownSize_eq_zero_iff, size_eq_zero_iff]

end Binary64

/-! ## The number that a text shows -/

namespace Decimal

/-- The number that a decimal is compared by: itself if it is whole, otherwise the shortest decimal
of its nearest binary number. -/
def compared? (d : Decimal) : Option ℚ :=
  match d.toInt? with
  | some n => some n
  | none => d.toBinary64.shown?

theorem compared?_of_toInt? {d : Decimal} {n : Int} (h : d.toInt? = some n) :
    d.compared? = some (n : ℚ) := by
  rw [compared?, h]

theorem compared?_of_toInt?_eq_none {d : Decimal} (h : d.toInt? = none) :
    d.compared? = d.toBinary64.shown? := by
  rw [compared?, h]

/-- A decimal can be compared if it is whole or its nearest binary number is finite. -/
theorem exists_compared?_iff {d : Decimal} :
    (∃ r, d.compared? = some r) ↔ d.toInt? ≠ none ∨ d.toBinary64.isFinite = true := by
  cases hwhole : d.toInt? with
  | some n =>
      rw [compared?_of_toInt? hwhole]
      exact ⟨fun _ => .inl (by simp), fun _ => ⟨n, rfl⟩⟩
  | none =>
      rw [compared?_of_toInt?_eq_none hwhole, or_iff_right (by simp)]
      cases d.toBinary64 <;> simp [Binary64.shown?, Binary64.isFinite]

theorem value?_finite (negative : Bool) (c : Nat) (e : Int) :
    (finite negative c e).value? = some (signed negative (c * 10 ^ e)) :=
  rfl

theorem toInt?_congr {a b : Decimal} (h : a.value? = b.value?) : a.toInt? = b.toInt? := by
  refine Option.ext fun n => ?_
  rw [toInt?_eq_some_iff, toInt?_eq_some_iff, h]

/-- Decimals of one value are compared by one number. -/
theorem compared?_congr {a b : Decimal} {r : ℚ} (ha : a.value? = some r) (hb : b.value? = some r) :
    a.compared? = b.compared? := by
  have hint := toInt?_congr (ha.trans hb.symm)
  cases hwhole : a.toInt? with
  | some n => rw [compared?_of_toInt? hwhole, compared?_of_toInt? (hint ▸ hwhole)]
  | none =>
      rw [compared?_of_toInt?_eq_none hwhole, compared?_of_toInt?_eq_none (hint ▸ hwhole)]
      cases a <;> cases b <;> simp only [value?, reduceCtorEq, Option.some.injEq] at ha hb
      next negative c e negative' c' e' =>
      have hnonneg : ∀ (c : Nat) (e : Int), (0 : ℚ) ≤ c * 10 ^ e :=
        fun c e => mul_nonneg (Nat.cast_nonneg c) (zpow_nonneg (by norm_num) e)
      obtain ⟨hsize, hzero | rfl⟩ :=
        (signed_eq_iff (hnonneg c e) (hnonneg c' e')).mp (ha.trans hb.symm)
      · -- A zero is whole.
        have hzeroInt : (finite negative c e).toInt? = some 0 := by
          rw [toInt?_eq_some_iff, value?_finite, hzero]
          simp [signed]
        rw [hzeroInt] at hwhole
        cases hwhole
      · rw [toBinary64, toBinary64, Binary64.ofDecimal_congr negative hsize]

end Decimal

namespace Canonical

open Numeral (minus)

/-- The data is the normal form of a number, and the number that it shows. -/
inductive Shows : Json → ℚ → Prop
  | int (n : Int) : Shows (.int n) n
  | float (negative : Bool) {b : Fin 2047} {f : Fin 4503599627370496}
      (nonzero : 0 < Binary64.mantissa b f) (broken : (Binary64.shortest b f).exponent < 0) :
      Shows (.float (.finite negative b f)) (signed negative (Binary64.shownSize b f))

theorem exists_number_of_shown? {x : Binary64} {r : ℚ} (h : x.shown? = some r) :
    ∃ j, number x = .ok j ∧ Shows j r := by
  cases x with
  | nan => cases h
  | infinite negative => cases h
  | finite negative b f =>
      rw [Binary64.shown?, Option.some.injEq] at h
      subst h
      rw [number]
      split
      · next hzero =>
        refine ⟨_, rfl, ?_⟩
        have hshown : signed negative (Binary64.shownSize b f) = ((0 : Int) : ℚ) := by
          rw [Binary64.shownSize_eq_zero_iff.mpr hzero]
          simp [signed]
        rw [hshown]
        exact .int 0
      · next hnonzero =>
        have hpos := Nat.pos_of_ne_zero hnonzero
        simp only
        split
        · next hwhole =>
          obtain ⟨k, hk⟩ := Int.eq_ofNat_of_zero_le hwhole
          refine ⟨_, rfl, ?_⟩
          rw [Binary64.shownSize_of_pos hpos, hk, signed_whole, Int.toNat_natCast]
          exact .int _
        · next hbroken => exact ⟨_, rfl, .float negative hpos (by omega)⟩

theorem number_of_shown?_eq_none {x : Binary64} (h : x.shown? = none) :
    number x = .error .notFinite := by
  cases x with
  | nan => rfl
  | infinite negative => rfl
  | finite negative b f => cases h

theorem isFinite_of_compared? {d : Decimal} {r : ℚ} (h : d.compared? = some r) :
    d.isFinite = true := by
  cases d with
  | finite negative c e => rfl
  | infinite negative => cases h
  | undefined negative signalling payload => cases h

theorem exists_decimal_of_compared? {d : Decimal} {r : ℚ} (h : d.compared? = some r) :
    ∃ j, decimal d = .ok j ∧ Shows j r := by
  rw [decimal, if_pos (isFinite_of_compared? h)]
  cases hwhole : d.toInt? with
  | some n =>
      rw [Decimal.compared?_of_toInt? hwhole, Option.some.injEq] at h
      subst h
      exact ⟨_, rfl, .int n⟩
  | none =>
      rw [Decimal.compared?_of_toInt?_eq_none hwhole] at h
      exact exists_number_of_shown? h

theorem decimal_of_compared?_eq_none {d : Decimal} (h : d.compared? = none) :
    decimal d = .error .notFinite := by
  unfold decimal
  split
  · cases hwhole : d.toInt? with
    | some n =>
        rw [Decimal.compared?_of_toInt? hwhole] at h
        cases h
    | none =>
        rw [Decimal.compared?_of_toInt?_eq_none hwhole] at h
        exact number_of_shown?_eq_none h
  · rfl

/-- A number that is shown with digits behind the point is no integer. -/
theorem shownSize_ne_natCast {b : Fin 2047} {f : Fin 4503599627370496}
    (nonzero : 0 < Binary64.mantissa b f) (broken : (Binary64.shortest b f).exponent < 0)
    (n : Nat) : Binary64.shownSize b f ≠ n := by
  intro h
  rw [Binary64.shownSize_of_pos nonzero, ← mul_one (n : ℚ), ← zpow_zero (10 : ℚ)] at h
  have hexp := Binary64.exponent_le_of_trimmed (Binary64.shortest_spec nonzero).2 h
  omega

/-- There is one normal form for a number. -/
theorem Shows.unique {j j' : Json} {r : ℚ} (h : Shows j r) (h' : Shows j' r) : j = j' := by
  have hbroken : ∀ {n : Int} {negative : Bool} {b : Fin 2047} {f : Fin 4503599627370496},
      0 < Binary64.mantissa b f → (Binary64.shortest b f).exponent < 0 →
        (n : ℚ) ≠ signed negative (Binary64.shownSize b f) := by
    intro n negative b f nonzero broken heq
    rw [← signed_natAbs, signed_eq_iff (Nat.cast_nonneg _) Binary64.shownSize_nonneg] at heq
    exact shownSize_ne_natCast nonzero broken _ heq.1.symm
  generalize hr : r = r' at h'
  cases h with
  | int n =>
      cases h' with
      | int n' => rw [Int.cast_inj.mp hr]
      | float negative nonzero broken => exact absurd hr (hbroken nonzero broken)
  | float negative nonzero broken =>
      cases h' with
      | int n' => exact absurd hr.symm (hbroken nonzero broken)
      | float negative' nonzero' broken' =>
          rw [signed_eq_iff Binary64.shownSize_nonneg Binary64.shownSize_nonneg,
            Binary64.shownSize_inj, Binary64.shownSize_eq_zero_iff] at hr
          obtain ⟨⟨rfl, rfl⟩, hzero | rfl⟩ := hr
          · -- Only a zero has both signs, and it is shown as an integer.
            omega
          · rfl

/-- The text of a normal form is a numeral of the number that it shows. -/
theorem Shows.exists_ofChars? {j : Json} {r : ℚ} (h : Shows j r) :
    ∃ n, Numeral.ofChars? (j.write .dense).toList = some n ∧ n.value = r := by
  cases h with
  | int n =>
      have hdigits : ∀ c ∈ Nat.toDigits 10 n.natAbs, c.isDigit = true := Numeral.isDigit_toDigits
      have hread := Numeral.ofChars?_whole (decide (n < 0)) hdigits Nat.toDigits_ne_nil
        Numeral.ends_nil (by simp) rfl
      have hchars : (Json.write .dense (.int n)).toList =
          minus (decide (n < 0)) ++ (Nat.toDigits 10 n.natAbs ++ []) := by
        rw [Json.write, String.toList_ofList, Json.chars_int, List.append_nil, minus]
        by_cases hn : n < 0 <;> simp [hn]
      refine ⟨_, hchars ▸ hread, ?_⟩
      rw [Numeral.natOfDigits_toDigits, ← signed_natAbs n, Numeral.value, signed, zpow_zero,
        mul_one]
  | float negative nonzero broken =>
      obtain ⟨n, hn, hnegative, hvalue⟩ :=
        Binary64.exists_ofChars?_write .json negative nonzero
      refine ⟨n, ?_, ?_⟩
      · rw [Json.write, String.toList_ofList, Json.chars]
        exact hn
      · rw [Numeral.value, hnegative, hvalue, signed, Binary64.shownSize_of_pos nonzero]

theorem Shows.write_eq_iff {j j' : Json} {r r' : ℚ} (h : Shows j r) (h' : Shows j' r') :
    j.write .dense = j'.write .dense ↔ r = r' := by
  constructor
  · intro heq
    obtain ⟨n, hn, hvalue⟩ := h.exists_ofChars?
    obtain ⟨n', hn', hvalue'⟩ := h'.exists_ofChars?
    rw [heq, hn', Option.some.injEq] at hn
    rw [← hvalue, ← hvalue', hn]
  · rintro rfl
    rw [h.unique h']

/-- A decimal that is compared by a number has that number for its text, unless it is too long. -/
theorem text_decimal_of_compared? {d : Decimal} {r : ℚ} (h : d.compared? = some r) :
    ∃ j, Shows j r ∧ text (.decimal d) =
      if j.isWritable then .ok (j.write .dense) else .error .longInteger := by
  obtain ⟨j, hj, hshows⟩ := exists_decimal_of_compared? h
  refine ⟨j, hshows, ?_⟩
  rw [text, normal, hj]
  rfl

theorem text_decimal_of_compared?_eq_none {d : Decimal} (h : d.compared? = none) :
    text (.decimal d) = .error .notFinite := by
  rw [text, normal, decimal_of_compared?_eq_none h]
  rfl

/-- What a decimal is compared by can be written if the decimal is not whole or not too long. -/
theorem Shows.isWritable {d : Decimal} {j : Json} {r : ℚ} (h : Shows j r)
    (hd : d.compared? = some r)
    (hlimit : ∀ n, d.toInt? = some n → Numeral.isWritable n = true) : j.isWritable = true := by
  cases hwhole : d.toInt? with
  | some n =>
      rw [Decimal.compared?_of_toInt? hwhole, Option.some.injEq] at hd
      subst hd
      rw [h.unique (.int n), Json.isWritable]
      exact hlimit n hwhole
  | none =>
      rw [Decimal.compared?_of_toInt?_eq_none hwhole] at hd
      obtain ⟨i, hi, hshows⟩ := exists_number_of_shown? hd
      have hfinite : d.toBinary64.isFinite = true := by
        cases hx : d.toBinary64 <;> rw [hx] at hd <;> first | rfl | cases hd
      obtain ⟨i', hi', hwritable⟩ := writes_number hfinite
      rw [h.unique hshows, Except.ok.inj (hi.symm.trans hi')]
      exact hwritable

theorem text_decimal_of_isWritable {d : Decimal} {r : ℚ} (h : d.compared? = some r)
    (hlimit : ∀ n, d.toInt? = some n → Numeral.isWritable n = true) :
    ∃ j, text (.decimal d) = .ok (j.write .dense) ∧ Shows j r := by
  obtain ⟨j, hshows, htext⟩ := text_decimal_of_compared? h
  exact ⟨j, htext.trans (if_pos (hshows.isWritable h hlimit)), hshows⟩

theorem text_decimal_of_not_isWritable {d : Decimal} {n : Int} (h : d.toInt? = some n)
    (hlimit : Numeral.isWritable n = false) : text (.decimal d) = .error .longInteger := by
  obtain ⟨j, hshows, htext⟩ := text_decimal_of_compared? (Decimal.compared?_of_toInt? h)
  rw [htext, hshows.unique (.int n), Json.isWritable, hlimit]
  rfl

end Canonical

end CallPlan
