import CallPlan.Json.Export
import CallPlan.Proofs.Json.Reading
import CallPlan.Proofs.Sequencing
import CallPlan.Proofs.Value.TextKeys
import CallPlan.Text.Utf8

/-!
# Values on one line

A value whose keys are texts and whose integers are not too long can be exported
(`exists_ofValue`): texts are in an order. What is written for it in a layout without line breaks
has no line break anywhere (`newline_not_mem_write`), since the characters of texts that would make
one are escaped, so a row of such texts with a line break behind each can be taken apart again.
-/

namespace CallPlan

/-! ## Values without long integers -/

namespace Value

theorem entriesWritable_append {es es' : List (Value × Value)} (h : entriesWritable es = true)
    (h' : entriesWritable es' = true) : entriesWritable (es ++ es') = true := by
  induction es with
  | nil => exact h'
  | cons e es ih =>
      simp only [entriesWritable, Bool.and_eq_true] at h
      simp only [List.cons_append, entriesWritable, Bool.and_eq_true]
      exact ⟨h.1, ih h.2⟩

theorem isWritable_record {fields : List (String × Value)}
    (h : ∀ x ∈ fields, x.2.isWritable = true) : (record fields).isWritable = true := by
  rw [record, isWritable]
  induction fields with
  | nil => rfl
  | cons x fields ih =>
      obtain ⟨hx, hfields⟩ := List.forall_mem_cons.mp h
      simp [entriesWritable, hx, ih hfields]

end Value

namespace Json

open Sequencing

/-! ## Values that can be exported -/

/-- The key is a text, and the value under it can be exported. -/
def Exported (m : Value × Except Refusal Json) : Prop :=
  m.1.kind = .text ∧ ∃ j, m.2 = .ok j

theorem exists_named {ms : List (Value × Except Refusal Json)} (h : ∀ m ∈ ms, Exported m) :
    ∃ js, named ms = .ok js := by
  induction ms with
  | nil => exact ⟨[], rfl⟩
  | cons m ms ih =>
      obtain ⟨k, r⟩ := m
      obtain ⟨⟨hk, j, hj⟩, hms⟩ := List.forall_mem_cons.mp h
      obtain ⟨s, rfl⟩ := Value.kind_eq_text_iff.mp hk
      obtain ⟨js, hjs⟩ := ih hms
      exact ⟨(s, j) :: js, bind_eq_ok_iff.mpr ⟨s, rfl, bind_eq_ok_iff.mpr ⟨j, hj,
        bind_eq_ok_iff.mpr ⟨js, hjs, rfl⟩⟩⟩⟩

/-- Members whose keys are texts have an order, and have names in it. -/
theorem exists_named_inKeyOrder {ms : List (Value × Except Refusal Json)}
    (h : ∀ m ∈ ms, Exported m) : ∃ js, (inKeyOrder ms >>= named) = .ok js := by
  have hall : ms.all (isTextKey ·.1) = true :=
    List.all_eq_true.mpr fun m hm => by simp [isTextKey, (h m hm).1]
  rw [inKeyOrder, if_pos hall, ok_bind]
  exact exists_named fun m hm => h m (Sorting.mem_sort.mp hm)

mutual

/-- A value whose keys are texts and whose integers can be written can be exported. -/
theorem exists_ofValue {v : Value} (h : v.textKeyed = true) (hw : v.isWritable = true) :
    ∃ j, ofValue v = .ok j := by
  cases v with
  | int n => exact ⟨.int n, if_pos hw⟩
  | list xs =>
      obtain ⟨js, hjs⟩ := exists_ofValues h hw
      exact ⟨.list js, map_eq_ok_iff.mpr ⟨js, hjs, rfl⟩⟩
  | tuple xs =>
      obtain ⟨js, hjs⟩ := exists_ofValues h hw
      exact ⟨.list js, map_eq_ok_iff.mpr ⟨js, hjs, rfl⟩⟩
  | map es =>
      obtain ⟨js, hjs⟩ := exists_named_inKeyOrder (exported_ofEntries h hw)
      obtain ⟨ms, hms, hnamed⟩ := bind_eq_ok_iff.mp hjs
      exact ⟨.object js, bind_eq_ok_iff.mpr ⟨ms, hms, bind_eq_ok_iff.mpr ⟨js, hnamed, rfl⟩⟩⟩
  | _ => exact ⟨_, rfl⟩

theorem exists_ofValues {xs : List Value} (h : Value.itemsTextKeyed xs = true)
    (hw : Value.itemsWritable xs = true) : ∃ js, ofValues xs = .ok js := by
  cases xs with
  | nil => exact ⟨[], rfl⟩
  | cons x xs =>
      rw [Value.itemsTextKeyed, Bool.and_eq_true] at h
      rw [Value.itemsWritable, Bool.and_eq_true] at hw
      obtain ⟨j, hj⟩ := exists_ofValue h.1 hw.1
      obtain ⟨js, hjs⟩ := exists_ofValues h.2 hw.2
      exact ⟨j :: js, bind_eq_ok_iff.mpr ⟨j, hj, bind_eq_ok_iff.mpr ⟨js, hjs, rfl⟩⟩⟩

theorem exported_ofEntries {es : List (Value × Value)} (h : Value.entriesTextKeyed es = true)
    (hw : Value.entriesWritable es = true) : ∀ m ∈ ofEntries es, Exported m := by
  cases es with
  | nil => exact fun m hm => nomatch hm
  | cons e es =>
      obtain ⟨k, x⟩ := e
      simp only [Value.entriesTextKeyed, Bool.and_eq_true, decide_eq_true_eq] at h
      simp only [Value.entriesWritable, Bool.and_eq_true] at hw
      exact List.forall_mem_cons.mpr
        ⟨⟨h.1.1, exists_ofValue h.1.2 hw.1.2⟩, exported_ofEntries h.2 hw.2⟩

end

/-! ## No line breaks -/

/-- Nothing that the layout adds breaks a line. -/
structure Layout.OneLine (l : Layout) : Prop where
  indent : l.indent = none
  separator : '\n' ∉ l.separator
  colon : '\n' ∉ l.colon

theorem oneLine_line : Layout.line.OneLine :=
  ⟨rfl, by decide, by decide⟩

theorem newline_not_mem_hexDigits (width n : Nat) : '\n' ∉ Text.hexDigits width n := by
  have hdigit : ∀ d < 16, '\n' ≠ Text.hexDigit d := by decide
  induction width generalizing n with
  | zero => simp [Text.hexDigits]
  | succ width ih =>
      have hlast := hdigit (n % 16) (Nat.mod_lt n (by decide))
      simp [Text.hexDigits, ih, hlast]

theorem newline_not_mem_escape (ascii : Bool) (c : Char) : '\n' ∉ escape ascii c := by
  have hunit : ∀ n, '\n' ∉ unitEscape n := by
    intro n
    simp [unitEscape, newline_not_mem_hexDigits]
  unfold escape
  by_cases hn : c = '\n'
  · simp [hn]
  · have hne : ¬ '\n' = c := fun h => hn h.symm
    repeat' split
    all_goals simp [hunit, hne]

theorem newline_not_mem_quote (ascii : Bool) (s : String) : '\n' ∉ quote ascii s := by
  simp [quote, newline_not_mem_escape]

theorem newline_not_mem_toDigits (n : Nat) : '\n' ∉ Nat.toDigits 10 n := by
  intro h
  have hdigit := Numeral.isDigit_toDigits _ h
  cases hdigit

theorem newline_not_mem_positional {digits : List Char} (h : '\n' ∉ digits) (point : Int) :
    '\n' ∉ Binary64.positional digits point := by
  have htake : '\n' ∉ digits.take point.toNat := fun hm => h (List.mem_of_mem_take hm)
  have hdrop : '\n' ∉ digits.drop point.toNat := fun hm => h (List.mem_of_mem_drop hm)
  unfold Binary64.positional
  split
  · simp [h]
  · split
    · simp [h]
    · simp [htake, hdrop]

theorem newline_not_mem_scientific {digits : List Char} (h : '\n' ∉ digits) (exponent : Int) :
    '\n' ∉ Binary64.scientific digits exponent := by
  have htake : '\n' ∉ digits.take 1 := fun hm => h (List.mem_of_mem_take hm)
  have htail : '\n' ∉ digits.tail := fun hm => h (List.mem_of_mem_tail hm)
  have hsign : '\n' ≠ if exponent < 0 then '-' else '+' := by split <;> decide
  have hsize := newline_not_mem_toDigits exponent.natAbs
  have hrest : '\n' ∉ if digits.length = 1 then [] else '.' :: digits.drop 1 := by
    split <;> simp [htail]
  simp only [Binary64.scientific, List.mem_append, List.mem_cons, List.mem_replicate, not_or]
  exact ⟨⟨htake, hrest⟩, by decide, hsign, fun hm => absurd hm.2 (by decide), hsize⟩

/-- A binary number is written without line breaks. -/
theorem newline_not_mem_float (x : Binary64) : '\n' ∉ (x.write .json).toList := by
  have hsign : ∀ negative : Bool, '\n' ∉ (if negative then "-" else "").toList := by decide
  cases x with
  | nan => decide
  | infinite negative => cases negative <;> decide
  | finite negative b f =>
      simp only [Binary64.write, String.toList_append, List.mem_append, String.toList_ofList,
        not_or]
      refine ⟨hsign negative, ?_⟩
      have hdigits := newline_not_mem_toDigits (Binary64.shortest b f).digits
      split
      · decide
      · split
        · exact newline_not_mem_positional hdigits _
        · exact newline_not_mem_scientific hdigits _

theorem newline_not_mem_enclose {l : Layout} (hl : l.OneLine) (level : Nat) {opening closing : Char}
    (ho : '\n' ≠ opening) (hc : '\n' ≠ closing) {items : List (List Char)}
    (h : ∀ item ∈ items, '\n' ∉ item) : '\n' ∉ l.enclose level opening closing items := by
  have hbreak : ∀ level, l.break level = [] := by
    intro level
    rw [Layout.break, hl.indent]
  cases items with
  | nil => simp [Layout.enclose, ho, hc]
  | cons item items =>
      obtain ⟨hitem, hitems⟩ := List.forall_mem_cons.mp h
      simp only [Layout.enclose, hbreak, List.nil_append, List.append_nil, List.mem_cons,
        List.mem_append, List.mem_flatMap, List.mem_nil_iff, or_false, not_or, not_exists, not_and]
      exact ⟨ho, ⟨hitem, fun i hi => ⟨hl.separator, hitems i hi⟩⟩, hc⟩

mutual

theorem newline_not_mem_chars {l : Layout} (hl : l.OneLine) (level : Nat) (j : Json) :
    '\n' ∉ chars l level j := by
  cases j with
  | null => simp [chars]
  | bool b => cases b <;> simp [chars]
  | int n =>
      rw [chars_int]
      split <;> simp [newline_not_mem_toDigits]
  | float x => exact newline_not_mem_float x
  | text s => exact newline_not_mem_quote l.ascii s
  | list xs =>
      exact newline_not_mem_enclose hl level (by decide) (by decide)
        (newline_not_mem_itemChars hl (level + 1) xs)
  | object ms =>
      exact newline_not_mem_enclose hl level (by decide) (by decide)
        (newline_not_mem_memberChars hl (level + 1) ms)

theorem newline_not_mem_itemChars {l : Layout} (hl : l.OneLine) (level : Nat) (xs : List Json) :
    ∀ item ∈ itemChars l level xs, '\n' ∉ item := by
  cases xs with
  | nil => simp [itemChars]
  | cons x xs =>
      rw [itemChars, List.forall_mem_cons]
      exact ⟨newline_not_mem_chars hl level x, newline_not_mem_itemChars hl level xs⟩

theorem newline_not_mem_memberChars {l : Layout} (hl : l.OneLine) (level : Nat)
    (ms : List (String × Json)) : ∀ item ∈ memberChars l level ms, '\n' ∉ item := by
  cases ms with
  | nil => simp [memberChars]
  | cons m ms =>
      obtain ⟨name, x⟩ := m
      have hx := newline_not_mem_chars hl level x
      rw [memberChars, List.forall_mem_cons]
      refine ⟨?_, newline_not_mem_memberChars hl level ms⟩
      simp [newline_not_mem_quote, hl.colon, hx]

end

/-- **Data is written on one line** where the layout has no lines. -/
theorem newline_not_mem_write {l : Layout} (hl : l.OneLine) (j : Json) :
    '\n' ∉ (j.write l).toList := by
  rw [write, String.toList_ofList]
  exact newline_not_mem_chars hl 0 j

/-- The byte of a line break is in no encoded character but that one. -/
theorem newline_not_mem_encode {s : String} (h : '\n' ∉ s.toList) :
    (10 : UInt8) ∉ Text.Utf8.encode s := by
  intro hmem
  obtain ⟨c, hc, hbyte⟩ := List.mem_flatMap.mp hmem
  have hne : c.val.toNat ≠ 10 := by
    intro hval
    have hbreak : c = '\n' := Char.ext (UInt32.toNat_inj.mp hval)
    exact h (hbreak ▸ hc)
  have hother : ∀ n, n % 256 ≠ 10 → (10 : UInt8) ≠ UInt8.ofNat n := by
    intro n hn heq
    have hsame := congrArg UInt8.toNat heq
    rw [UInt8.toNat_ofNat'] at hsame
    exact hn hsame.symm
  -- A character of several bytes has none below 128.
  revert hbyte
  simp only [String.utf8EncodeChar]
  repeat' split
  all_goals
    simp only [List.mem_cons, List.not_mem_nil, or_false, imp_false, not_or]
    and_intros
  all_goals exact hother _ (by omega)

end Json

end CallPlan
