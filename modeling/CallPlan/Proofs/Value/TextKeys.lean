import CallPlan.Json.Basic
import CallPlan.Toml.Basic

/-!
# Values whose keys are texts

Mappings may have keys of any kind, but those of JSON and TOML documents are texts
(`textKeyed_ofJson`, `textKeyed_ofToml`). Having only text keys passes on to the fields
and the items of a value.
-/

namespace CallPlan.Value

mutual

/-- All keys inside a value are texts. -/
def textKeyed : Value → Bool
  | .list xs => itemsTextKeyed xs
  | .tuple xs => itemsTextKeyed xs
  | .map es => entriesTextKeyed es
  | _ => true

/-- All keys inside items are texts. -/
def itemsTextKeyed : List Value → Bool
  | [] => true
  | x :: xs => x.textKeyed && itemsTextKeyed xs

/-- All keys of entries and inside their values are texts. -/
def entriesTextKeyed : List (Value × Value) → Bool
  | [] => true
  | (k, x) :: es => k.kind = .text && x.textKeyed && entriesTextKeyed es

end

theorem kind_eq_text_iff {v : Value} : v.kind = .text ↔ ∃ s, v = .text s := by
  cases v <;> simp [kind]

theorem textKeyed_of_mem {xs : List Value} (h : itemsTextKeyed xs = true) {x : Value}
    (hx : x ∈ xs) : x.textKeyed = true := by
  induction xs with
  | nil => cases hx
  | cons y xs ih =>
      simp only [itemsTextKeyed, Bool.and_eq_true] at h
      rcases List.mem_cons.mp hx with rfl | hx
      · exact h.1
      · exact ih h.2 hx

theorem textKeyed_of_mem_entries {es : List (Value × Value)} (h : entriesTextKeyed es = true)
    {e : Value × Value} (he : e ∈ es) : e.1.kind = .text ∧ e.2.textKeyed = true := by
  induction es with
  | nil => cases he
  | cons e' es ih =>
      simp only [entriesTextKeyed, Bool.and_eq_true, decide_eq_true_eq] at h
      rcases List.mem_cons.mp he with rfl | he
      · exact h.1
      · exact ih h.2 he

theorem entriesTextKeyed_append {es es' : List (Value × Value)}
    (h : entriesTextKeyed es = true) (h' : entriesTextKeyed es' = true) :
    entriesTextKeyed (es ++ es') = true := by
  induction es with
  | nil => exact h'
  | cons e es ih =>
      simp only [entriesTextKeyed, Bool.and_eq_true] at h
      simp only [List.cons_append, entriesTextKeyed, Bool.and_eq_true]
      exact ⟨h.1, ih h.2⟩

theorem mem_of_lookup? {name : String} {es : List (Value × Value)} {x : Value}
    (h : lookup? name es = some x) : (.text name, x) ∈ es := by
  induction es with
  | nil => cases h
  | cons e es ih =>
      obtain ⟨k, y⟩ := e
      unfold lookup? at h
      split at h
      · cases h
      · next heq =>
        cases heq
        split at h
        · next hn =>
          cases h
          rw [← hn]
          exact List.mem_cons_self ..
        · exact List.mem_cons_of_mem _ (ih h)
      · next heq =>
        cases heq
        exact List.mem_cons_of_mem _ (ih h)

theorem textKeyed_of_field? {v x : Value} {name : String} (h : v.textKeyed = true)
    (hx : v.field? name = some x) : x.textKeyed = true := by
  cases v with
  | map es => exact (textKeyed_of_mem_entries h (mem_of_lookup? hx)).2
  | _ => cases hx

theorem textKeyed_record {fields : List (String × Value)}
    (h : ∀ x ∈ fields, x.2.textKeyed = true) : (record fields).textKeyed = true := by
  rw [record, textKeyed]
  induction fields with
  | nil => rfl
  | cons x fields ih =>
      obtain ⟨hx, hfields⟩ := List.forall_mem_cons.mp h
      simp [entriesTextKeyed, kind, hx, ih hfields]

/-! ## Documents -/

mutual

theorem textKeyed_ofJson (j : Json) : (ofJson j).textKeyed = true := by
  cases j with
  | list xs => exact itemsTextKeyed_ofJson xs
  | object ms => exact entriesTextKeyed_ofJson ms
  | _ => rfl

theorem itemsTextKeyed_ofJson (js : List Json) : itemsTextKeyed (ofJsonItems js) = true := by
  cases js with
  | nil => rfl
  | cons j js => simp [ofJsonItems, itemsTextKeyed, textKeyed_ofJson j, itemsTextKeyed_ofJson js]

theorem entriesTextKeyed_ofJson (ms : List (String × Json)) :
    entriesTextKeyed (ofJsonMembers ms) = true := by
  cases ms with
  | nil => rfl
  | cons m ms =>
      obtain ⟨name, j⟩ := m
      simp [ofJsonMembers, entriesTextKeyed, kind, textKeyed_ofJson j, entriesTextKeyed_ofJson ms]

end

mutual

theorem textKeyed_ofToml (t : Toml) : (ofToml t).textKeyed = true := by
  cases t with
  | list xs => exact itemsTextKeyed_ofToml xs
  | table ms => exact entriesTextKeyed_ofToml ms
  | _ => rfl

theorem itemsTextKeyed_ofToml (ts : List Toml) : itemsTextKeyed (ofTomlItems ts) = true := by
  cases ts with
  | nil => rfl
  | cons t ts => simp [ofTomlItems, itemsTextKeyed, textKeyed_ofToml t, itemsTextKeyed_ofToml ts]

theorem entriesTextKeyed_ofToml (ms : List (String × Toml)) :
    entriesTextKeyed (ofTomlMembers ms) = true := by
  cases ms with
  | nil => rfl
  | cons m ms =>
      obtain ⟨name, t⟩ := m
      simp [ofTomlMembers, entriesTextKeyed, kind, textKeyed_ofToml t, entriesTextKeyed_ofToml ms]

end

end CallPlan.Value
