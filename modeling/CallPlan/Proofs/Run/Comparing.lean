import CallPlan.Proofs.Sequencing
import CallPlan.Proofs.Value.Numbers
import CallPlan.Run.Expectation

/-!
# Comparing decimals

A decimal result meets an expected decimal if both are compared by one number
(`compareOne_eq_nil_iff`). So decimals of one value always meet, and of whole ones no others do.
Decimals that are not whole are compared by their nearest binary numbers: what these cannot tell
apart meets as well (`compareOne_decimals`). A whole decimal that is too long cannot be expected
(`compareOne_of_not_isWritable`), and as a result it meets nothing.
-/

namespace CallPlan.Expectation

open Sequencing

/-- One expected property and a result that has it. -/
def compareOne (name : String) (want actual : Value) : Except Canonical.Error (List Mismatch) :=
  compare [(.text name, want)] (.map [(.text name, actual)])

theorem property?_single (name : String) (v : Value) :
    property? (.text name) (.map [(.text name, v)]) = some v := by
  change Value.find? (.text name) [(.text name, v)] = some v
  simp [Value.find?]

theorem mismatch?_single (name wanted : String) (v : Value) :
    mismatch? (.text name) wanted (.map [(.text name, v)]) =
      if actualText v = wanted then none else some ⟨.text name, wanted, some (actualText v)⟩ := by
  rw [mismatch?, property?_single]

theorem exists_compareOne {name : String} {want actual : Value} {wanted : String}
    (h : Canonical.text want = .ok wanted) : ∃ ms, compareOne name want actual = .ok ms := by
  rw [compareOne, compare, h]
  exact ⟨_, rfl⟩

theorem compareOne_eq_nil_iff_text {name : String} {want actual : Value} {wanted : String}
    (h : Canonical.text want = .ok wanted) :
    compareOne name want actual = .ok [] ↔ actualText actual = wanted := by
  have hone : compareOne name want actual =
      .ok ((mismatch? (.text name) wanted (.map [(.text name, actual)])).toList ++ []) := by
    rw [compareOne, compare, h]
    rfl
  rw [hone, mismatch?_single, Except.ok.injEq, List.append_nil]
  by_cases heq : actualText actual = wanted
  · simp [heq]
  · simp [heq]

theorem ofChars?_unserialisable :
    Numeral.ofChars? ("<unserialisable " ++ Value.Kind.decimal.name ++ ">").toList = none := by
  decide

/-- A decimal without canonical text is described by words, which are no numeral. -/
theorem actualText_ne_write {b : Decimal} {e : Canonical.Error} {j : Json} {r : ℚ}
    (hb : Canonical.text (.decimal b) = .error e) (hshows : Canonical.Shows j r) :
    actualText (.decimal b) ≠ j.write .dense := by
  obtain ⟨n, hn, -⟩ := hshows.exists_ofChars?
  rw [actualText, hb]
  intro heq
  rw [← heq] at hn
  exact absurd (hn.symm.trans ofChars?_unserialisable) (by simp)

/-- **A decimal meets an expected one** if both are compared by one number. -/
theorem compareOne_eq_nil_iff (name : String) {a b : Decimal} {r : ℚ} (ha : a.compared? = some r)
    (hlimit : ∀ n, a.toInt? = some n → Numeral.isWritable n = true) :
    compareOne name (.decimal a) (.decimal b) = .ok [] ↔ b.compared? = some r := by
  obtain ⟨j, hj, hshows⟩ := Canonical.text_decimal_of_isWritable ha hlimit
  rw [compareOne_eq_nil_iff_text hj]
  cases hb : b.compared? with
  | some r' =>
      obtain ⟨j', hshows', hj'⟩ := Canonical.text_decimal_of_compared? hb
      rw [Option.some.injEq]
      split at hj'
      · rw [actualText, hj']
        exact hshows'.write_eq_iff hshows
      · next hlong =>
        -- Of one number both would be written, since the expected one is.
        refine iff_of_false (actualText_ne_write hj' hshows) fun heq => hlong ?_
        rw [hshows'.unique (heq ▸ hshows)]
        exact hshows.isWritable ha hlimit
  | none =>
      refine iff_of_false ?_ (fun h => nomatch h)
      exact actualText_ne_write (Canonical.text_decimal_of_compared?_eq_none hb) hshows

/-- A whole decimal that is too long has no text to compare with. -/
theorem compareOne_of_not_isWritable (name : String) {a : Decimal} {n : Int} (v : Value)
    (ha : a.toInt? = some n) (hlong : Numeral.isWritable n = false) :
    compareOne name (.decimal a) v = .error .longInteger := by
  rw [compareOne, compare, Canonical.text_decimal_of_not_isWritable ha hlong]
  rfl

/-- **Expectations on decimals.** If the expected decimal is whole and not too long, or its nearest
binary number is finite, comparing gives an answer. The property meets its expectation exactly if
both decimals are compared by one number; it does if they have one value, and of whole ones only
then. Of two that are not whole it does exactly if their nearest binary numbers have one value. -/
theorem compareOne_decimals (name : String) {a b : Decimal}
    (ha : a.toInt? ≠ none ∨ a.toBinary64.isFinite = true)
    (hlimit : ∀ n, a.toInt? = some n → Numeral.isWritable n = true) (hb : b.isFinite = true) :
    (∃ ms, compareOne name (.decimal a) (.decimal b) = .ok ms) ∧
    (compareOne name (.decimal a) (.decimal b) = .ok [] ↔ a.compared? = b.compared?) ∧
    (a.value? = b.value? → compareOne name (.decimal a) (.decimal b) = .ok []) ∧
    (∀ m n, a.toInt? = some m → b.toInt? = some n →
      (compareOne name (.decimal a) (.decimal b) = .ok [] ↔ a.value? = b.value?)) ∧
    (a.toInt? = none → b.toInt? = none →
      (compareOne name (.decimal a) (.decimal b) = .ok [] ↔
        a.toBinary64.value? = b.toBinary64.value?)) := by
  obtain ⟨r, hr⟩ := Decimal.exists_compared?_iff.mpr ha
  have hmeets : compareOne name (.decimal a) (.decimal b) = .ok [] ↔ a.compared? = b.compared? := by
    rw [compareOne_eq_nil_iff name hr hlimit, hr]
    exact eq_comm
  refine ⟨?_, hmeets, ?_, ?_, ?_⟩
  · obtain ⟨j, hj, -⟩ := Canonical.text_decimal_of_isWritable hr hlimit
    exact exists_compareOne hj
  · intro hvalue
    obtain ⟨s, hs⟩ := Decimal.exists_value?_of_isFinite hb
    exact hmeets.mpr (Decimal.compared?_congr (hvalue.trans hs) hs)
  · intro m n hm hn
    rw [hmeets, Decimal.compared?_of_toInt? hm, Decimal.compared?_of_toInt? hn,
      Decimal.toInt?_eq_some_iff.mp hm, Decimal.toInt?_eq_some_iff.mp hn]
  · intro hm hn
    rw [hmeets, Decimal.compared?_of_toInt?_eq_none hm, Decimal.compared?_of_toInt?_eq_none hn]
    exact Binary64.shown?_eq_iff

theorem compareOne_decimals_trailingZero :
    (Decimal.finite false 150 (-2)).toBinary64.isFinite = true ∧
      (∀ n, (Decimal.finite false 150 (-2)).toInt? = some n → Numeral.isWritable n = true) ∧
      compareOne "p" (.decimal (.finite false 150 (-2))) (.decimal (.finite false 15 (-1))) =
        .ok [] := by
  have hfinite : (Decimal.finite false 150 (-2)).toBinary64.isFinite = true := by decide
  have hbroken : (Decimal.finite false 150 (-2)).toInt? = none := by decide
  have hlimit : ∀ n, (Decimal.finite false 150 (-2)).toInt? = some n →
      Numeral.isWritable n = true :=
    fun n hn => nomatch hbroken.symm.trans hn
  have hvalue : (Decimal.finite false 150 (-2)).value? = (Decimal.finite false 15 (-1)).value? := by
    simp only [Decimal.value?, Option.some.injEq]
    norm_num
  exact ⟨hfinite, hlimit, (compareOne_decimals "p" (.inr hfinite) hlimit rfl).2.2.1 hvalue⟩

/-- Two decimals of different values that have one nearest binary number: the second one meets the
expectation of the first. And a decimal of one digit more than can be written does not even meet
itself: there is no comparing with it. -/
theorem compareOne_closeDecimals :
    ((Decimal.finite false 1 (-1)).value? ≠
        (Decimal.finite false 10000000000000000001 (-20)).value? ∧
      compareOne "p" (.decimal (.finite false 1 (-1)))
        (.decimal (.finite false 10000000000000000001 (-20))) = .ok []) ∧
    compareOne "p" (.decimal (.finite false 1 4300)) (.decimal (.finite false 1 4300)) =
      .error .longInteger := by
  refine ⟨⟨?_, ?_⟩, ?_⟩
  · simp only [Decimal.value?, ne_eq, Option.some.injEq]
    norm_num
  · have htext : Canonical.text (.decimal (.finite false 1 (-1))) = .ok "0.1" := by decide
    rw [compareOne_eq_nil_iff_text htext]
    decide
  · have hlong : (Decimal.finite false 1 4300).toInt? =
        some ((10 ^ Numeral.maxDigits : Nat) : Int) := Decimal.toInt?_pow Numeral.maxDigits
    exact compareOne_of_not_isWritable "p" _ hlong Numeral.not_isWritable_pow

end CallPlan.Expectation
