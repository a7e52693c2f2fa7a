import CallPlan.Proofs.Json.Reading
import CallPlan.Proofs.Number.Written
import CallPlan.Proofs.Sequencing
import CallPlan.Proofs.Value.Expressible
import CallPlan.Run.Expectation

/-!
# What JSON cannot express

A result may hold what has no canonical text: an undefined number, a time of day, an object. It is
compared all the same, by words that stand for it. These are in angle brackets, and no JSON text
begins with one (`chars_ne_angle`): not even the text that spells the words, since a text is in
quotes. So the words are no canonical text (`unserialisable_ne_text`), and what they stand for
meets no expectation (`unmet_of_inexpressible`).
-/

namespace CallPlan

open Sequencing

/-! ## How JSON text begins -/

theorem Numeral.ofChars?_angle (cs : List Char) : ofChars? ('<' :: cs) = none := by
  have hsign : sign ('<' :: cs) = (false, '<' :: cs) := rfl
  have hdigit : ('<').isDigit = false := rfl
  have hfraction : fraction ('<' :: cs) = ([], '<' :: cs) := rfl
  simp [ofChars?, hsign, hdigit, hfraction]

/-- A finite number is written as a numeral. -/
theorem Binary64.write_finite_ne_angle (style : Style) (negative : Bool) (biased : Fin 2047)
    (fraction : Fin 4503599627370496) (cs : List Char) :
    (write style (.finite negative biased fraction)).toList ≠ '<' :: cs := by
  intro h
  have hread := read_write style negative biased fraction
  rw [h, Numeral.ofChars?_angle] at hread
  cases hread

namespace Json

theorem enclose_ne_angle (l : Layout) (level : Nat) {opening : Char} (h : opening ≠ '<')
    (closing : Char) (items : List (List Char)) (cs : List Char) :
    l.enclose level opening closing items ≠ '<' :: cs := by
  cases items with
  | nil =>
      intro heq
      exact h (List.cons.inj heq).1
  | cons item items =>
      intro heq
      exact h (List.cons.inj heq).1

/-- No JSON text begins with an angle bracket. -/
theorem chars_ne_angle (l : Layout) (level : Nat) (j : Json) (cs : List Char) :
    chars l level j ≠ '<' :: cs := by
  cases j with
  | null =>
      intro h
      cases h
  | bool b =>
      intro h
      cases b <;> cases h
  | int n =>
      intro h
      obtain ⟨d, ds, hd, hchars | hchars⟩ := exists_chars_int l level n
      · rw [h] at hchars
        cases hchars
        cases hd
      · rw [h] at hchars
        cases hchars
  | float x =>
      cases x with
      | finite negative b f => exact Binary64.write_finite_ne_angle .json negative b f cs
      | infinite negative =>
          intro h
          cases negative <;> cases h
      | nan =>
          intro h
          cases h
  | text s =>
      intro h
      cases h
  | list xs => exact enclose_ne_angle l level (by decide) ']' _ cs
  | object ms => exact enclose_ne_angle l level (by decide) '\x7d' _ cs

end Json

namespace Expectation

/-! ## The words for what has no text -/

theorem actualText_of_error {v : Value} {e : Canonical.Error} (h : Canonical.text v = .error e) :
    actualText v = "<unserialisable " ++ v.kind.name ++ ">" := by
  rw [actualText, h]

/-- The words for what has no canonical text are the canonical text of no value, whatever kind of
thing they name. -/
theorem unserialisable_ne_text (kind : String) {w : Value} {s : String}
    (hw : Canonical.text w = .ok s) : "<unserialisable " ++ kind ++ ">" ≠ s := by
  intro heq
  obtain ⟨j, -, -, hj⟩ := Canonical.text_eq_ok_iff.mp hw
  have hwords : ("<unserialisable " ++ kind ++ ">").toList =
      '<' :: ("unserialisable ".toList ++ kind.toList ++ ['>']) := by
    rw [String.toList_append, String.toList_append]
    rfl
  have hchars : ("<unserialisable " ++ kind ++ ">").toList = j.chars .dense 0 := by
    rw [heq, ← hj, Json.write, String.toList_ofList]
  exact Json.chars_ne_angle .dense 0 j _ (hchars.symm.trans hwords)

theorem actualText_ne_text {v w : Value} {e : Canonical.Error} {s : String}
    (hv : Canonical.text v = .error e) (hw : Canonical.text w = .ok s) : actualText v ≠ s := by
  rw [actualText_of_error hv]
  exact unserialisable_ne_text v.kind.name hw

/-! ## Expectations that are not met -/

theorem mismatch?_of_property? {name v result : Value} {wanted : String}
    (h : property? name result = some v) (hne : actualText v ≠ wanted) :
    mismatch? name wanted result = some ⟨name, wanted, some (actualText v)⟩ := by
  rw [mismatch?, h]
  exact if_neg hne

/-- Where all expected values have canonical text, every property that misses its expectation is
found. -/
theorem exists_compare_eq_ok (result : Value) {expected : List (Value × Value)}
    (h : ∀ x ∈ expected, ∃ s, Canonical.text x.2 = .ok s) :
    ∃ ms, compare expected result = .ok ms ∧ ∀ x ∈ expected, ∀ wanted m,
      Canonical.text x.2 = .ok wanted → mismatch? x.1 wanted result = some m → m ∈ ms := by
  induction expected with
  | nil => exact ⟨[], rfl, fun x hx => nomatch hx⟩
  | cons x expected ih =>
      obtain ⟨name, want⟩ := x
      obtain ⟨hhead, htail⟩ := List.forall_mem_cons.mp h
      obtain ⟨text, htext⟩ := hhead
      obtain ⟨ms, hms, hfound⟩ := ih htail
      have hcompare : compare ((name, want) :: expected) result =
          .ok ((mismatch? name text result).toList ++ ms) := by
        rw [compare, htext, hms]
        rfl
      refine ⟨_, hcompare, ?_⟩
      intro x hx wanted m hwanted hm
      rcases List.mem_cons.mp hx with rfl | hx
      · obtain rfl : text = wanted := Except.ok.inj (htext.symm.trans hwanted)
        rw [hm]
        exact List.mem_append_left _ (List.mem_singleton_self m)
      · exact List.mem_append_right _ (hfound x hx wanted m hwanted hm)

theorem verify_of_mem_compare {id : String} {expected : List (Value × Value)} {result : Value}
    {ms : List Mismatch} (hcompare : compare expected result = .ok ms) {m : Mismatch}
    (hm : m ∈ ms) :
    verify id expected result =
      if ms.all (·.name.kind = .text) then .error (.cause (.mismatch id ms))
      else .error (.fault .expectationName) := by
  cases ms with
  | nil => cases hm
  | cons m' ms => rw [verify, hcompare]

/-- **What JSON cannot express meets no expectation.** Let the expected values have canonical text
and let a result have, under one of the expected names, a value without: one that holds an undefined
or infinite number, a time of day, an object or an integer that is too long at any depth. Then
comparing reports the words that
stand for it as a mismatch for that name, and the result is not accepted. For such words are the
canonical text of no value, whatever kind of thing they name. -/
theorem unmet_of_inexpressible (id : String) {expected : List (Value × Value)}
    {name want v result : Value} (hexpected : ∀ x ∈ expected, ∃ s, Canonical.text x.2 = .ok s)
    (hname : (name, want) ∈ expected) (hproperty : property? name result = some v)
    (hv : ∃ e, Canonical.text v = .error e) :
    v.expressible = false ∧ actualText v = "<unserialisable " ++ v.kind.name ++ ">"
    ∧ (∀ kind w s, Canonical.text w = .ok s → "<unserialisable " ++ kind ++ ">" ≠ s)
    ∧ ∃ wanted ms, Canonical.text want = .ok wanted ∧ compare expected result = .ok ms
      ∧ ⟨name, wanted, some (actualText v)⟩ ∈ ms
      ∧ verify id expected result =
        if ms.all (·.name.kind = .text) then .error (.cause (.mismatch id ms))
        else .error (.fault .expectationName) := by
  obtain ⟨e, he⟩ := hv
  obtain ⟨wanted, hwanted⟩ := hexpected _ hname
  obtain ⟨ms, hcompare, hfound⟩ := exists_compare_eq_ok result hexpected
  have hmem : ⟨name, wanted, some (actualText v)⟩ ∈ ms :=
    hfound _ hname wanted _ hwanted
      (mismatch?_of_property? hproperty (actualText_ne_text he hwanted))
  refine ⟨?_, actualText_of_error he, fun kind w s hw => unserialisable_ne_text kind hw, wanted, ms,
    hwanted, hcompare, hmem, verify_of_mem_compare hcompare hmem⟩
  refine Bool.eq_false_iff.mpr fun hexpressible => ?_
  obtain ⟨s, hs⟩ := Canonical.exists_text hexpressible
  rw [he] at hs
  cases hs

/-- A result that holds an undefined number at some depth, where the words for it are expected. -/
theorem unmet_undefinedNumber :
    let expected : List (Value × Value) := [(.text "load", .text "<unserialisable list>")]
    let load : Value := .list [.int 1, .map [(.text "mean", .float .nan)]]
    property? (.text "load") (.map [(.text "load", load)]) = some load
    ∧ (∃ ms, compare expected (.map [(.text "load", load)]) = .ok ms
      ∧ ⟨.text "load", "\"<unserialisable list>\"", some "<unserialisable list>"⟩ ∈ ms) := by
  intro expected load
  have hproperty : property? (.text "load") (.map [(.text "load", load)]) = some load := by
    change Value.find? (.text "load") [(.text "load", load)] = some load
    simp [Value.find?]
  have hwanted : Canonical.text (.text "<unserialisable list>") =
      .ok "\"<unserialisable list>\"" := by decide
  have hexpected : ∀ x ∈ expected, ∃ s, Canonical.text x.2 = .ok s := by
    intro x hx
    obtain rfl := List.mem_singleton.mp hx
    exact ⟨_, hwanted⟩
  have herror : Canonical.text load = .error .notFinite := rfl
  obtain ⟨-, -, -, wanted, ms, hw, hcompare, hmem, -⟩ := unmet_of_inexpressible "poll" hexpected
    (List.mem_singleton_self _) hproperty ⟨_, herror⟩
  obtain rfl := Except.ok.inj (hwanted.symm.trans hw)
  rw [actualText_of_error herror] at hmem
  exact ⟨hproperty, ms, hcompare, hmem⟩

end Expectation

end CallPlan
