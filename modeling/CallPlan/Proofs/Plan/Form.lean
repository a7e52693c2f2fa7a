import CallPlan.Plan.Schema

/-!
# The form of a plan document as a property

`HasForm` says of a value what the form of documents asks for, without any finding in it: which
fields a document and its commands must have and may have, and what stands there. Each check of
the form comes with the property that it decides: it makes no finding exactly where the value has
the property. The last of these lemmas is about whole documents (`documentIssues_eq_nil_iff`).
-/

namespace CallPlan.Plan

/-! ## Fields -/

/-- The value has a field of the name, and what stands there has the property. -/
def Requires (v : Value) (name : String) (P : Value → Prop) : Prop :=
  ∃ x, v.field? name = some x ∧ P x

/-- If the value has a field of the name, what stands there has the property. -/
def Admits (v : Value) (name : String) (P : Value → Prop) : Prop :=
  ∀ x, v.field? name = some x → P x

theorem requires_iff {v : Value} {name : String} {P : Value → Prop} :
    Requires v name P ↔ (v.field? name).isSome ∧ Admits v name P := by
  cases h : v.field? name <;> simp [Requires, Admits, h]

section

variable {place name : String} {es : List (Value × Value)}

/-- A check of a field decides what it decides of the values that can stand there. -/
theorem fieldIssues_eq_nil_iff {check : String → Value → List Issue} {P : Value → Prop}
    (hcheck : ∀ place v, check place v = [] ↔ P v) :
    fieldIssues check place name es = [] ↔ Admits (.map es) name P := by
  unfold fieldIssues Admits
  rw [Value.field?_map]
  cases Value.lookup? name es with
  | none => simp
  | some x => simp [hcheck]

theorem missingIssues_eq_nil_iff {names : List String} :
    missingIssues place names es = [] ↔ ∀ name ∈ names, ((Value.map es).field? name).isSome := by
  simp [missingIssues, Option.isSome_iff_ne_none]

end

/-! ## What can stand in a field -/

def IsMapping (v : Value) : Prop :=
  ∃ es, v = .map es

def IsNonEmptyText (v : Value) : Prop :=
  ∃ s, v = .text s ∧ s ≠ ""

/-- A text that can stand in a reference: it is not empty and has neither points nor brackets nor
braces. -/
def IsIdText (v : Value) : Prop :=
  ∃ s, v = .text s ∧ s ≠ "" ∧ ∀ c ∈ s.toList, c ∉ ['.', '[', ']', '\x7b', '\x7d']

/-- A mapping to texts that are not empty. -/
def IsVersions (v : Value) : Prop :=
  ∃ es, v = .map es ∧ ∀ e ∈ es, IsNonEmptyText e.2

section

variable (place : String) (v : Value)

theorem mappingIssues_eq_nil_iff : mappingIssues place v = [] ↔ IsMapping v := by
  cases v <;> simp [mappingIssues, IsMapping]

theorem nonEmptyIssues_eq_nil_iff : nonEmptyIssues place v = [] ↔ IsNonEmptyText v := by
  cases v <;> simp [nonEmptyIssues, IsNonEmptyText]

theorem isIdText_text {s : String} : IsIdText (.text s) ↔ isId s = true := by
  simp [IsIdText, isId, breaksId]

theorem idIssues_eq_nil_iff : idIssues place v = [] ↔ IsIdText v := by
  cases v with
  | text s => rw [isIdText_text, idIssues]; split <;> simp [*]
  | _ => simp [idIssues, IsIdText]

theorem versionsIssues_eq_nil_iff : versionsIssues place v = [] ↔ IsVersions v := by
  cases v with
  | map es =>
      simp only [versionsIssues, List.flatMap_eq_nil_iff, nonEmptyIssues_eq_nil_iff]
      simp [IsVersions]
  | _ => simp [versionsIssues, IsVersions]

end

/-! ## Commands and documents -/

/-- What a value in the list of commands must be. -/
structure IsCommand (v : Value) : Prop where
  mapping : IsMapping v
  objectType : Requires v "objectType" IsNonEmptyText
  method : Requires v "method" IsNonEmptyText
  id : Requires v "resultsID" IsIdText
  params : Admits v "params" IsMapping
  expected : Admits v "expectedResults" IsMapping

def IsCommandList (v : Value) : Prop :=
  ∃ vs, v = .list vs ∧ ∀ x ∈ vs, IsCommand x

/-- The form of a document, up to ids that occur twice. -/
structure HasForm (v : Value) : Prop where
  mapping : IsMapping v
  commands : Requires v "commands" IsCommandList
  versions : Admits v "apiVersions" IsVersions

theorem commandIssues_eq_nil_iff (place : String) (v : Value) :
    commandIssues place v = [] ↔ IsCommand v := by
  cases v with
  | map es =>
      simp only [commandIssues, List.append_eq_nil_iff, missingIssues_eq_nil_iff,
        fieldIssues_eq_nil_iff nonEmptyIssues_eq_nil_iff,
        fieldIssues_eq_nil_iff mappingIssues_eq_nil_iff, fieldIssues_eq_nil_iff idIssues_eq_nil_iff]
      constructor
      · rintro ⟨⟨⟨⟨⟨hmissing, htype⟩, hmethod⟩, hparams⟩, hid⟩, hexpected⟩
        exact ⟨⟨es, rfl⟩, requires_iff.mpr ⟨hmissing _ (by simp), htype⟩,
          requires_iff.mpr ⟨hmissing _ (by simp), hmethod⟩,
          requires_iff.mpr ⟨hmissing _ (by simp), hid⟩, hparams, hexpected⟩
      · rintro ⟨-, htype, hmethod, hid, hparams, hexpected⟩
        rw [requires_iff] at htype hmethod hid
        refine ⟨⟨⟨⟨⟨?_, htype.2⟩, hmethod.2⟩, hparams⟩, hid.2⟩, hexpected⟩
        simp only [List.forall_mem_cons]
        exact ⟨htype.1, hmethod.1, hid.1, by simp⟩
  | _ =>
      refine iff_of_false (by simp [commandIssues]) fun h => ?_
      obtain ⟨es, hes⟩ := h.mapping
      cases hes

theorem itemIssues_eq_nil_iff {place : String} {n : Nat} {vs : List Value} :
    itemIssues place n vs = [] ↔ ∀ x ∈ vs, IsCommand x := by
  induction vs generalizing n with
  | nil => simp [itemIssues]
  | cons v vs ih =>
      rw [itemIssues, List.append_eq_nil_iff, commandIssues_eq_nil_iff, ih, List.forall_mem_cons]

theorem commandsIssues_eq_nil_iff (place : String) (v : Value) :
    commandsIssues place v = [] ↔ IsCommandList v := by
  cases v with
  | list vs => simp [commandsIssues, IsCommandList, itemIssues_eq_nil_iff]
  | _ => simp [commandsIssues, IsCommandList]

/-- The check makes no finding exactly where a value is of the form. -/
theorem documentIssues_eq_nil_iff {v : Value} : documentIssues v = [] ↔ HasForm v := by
  cases v with
  | map es =>
      simp only [documentIssues, List.append_eq_nil_iff, missingIssues_eq_nil_iff,
        fieldIssues_eq_nil_iff versionsIssues_eq_nil_iff,
        fieldIssues_eq_nil_iff commandsIssues_eq_nil_iff]
      constructor
      · rintro ⟨⟨hmissing, hversions⟩, hcommands⟩
        exact ⟨⟨es, rfl⟩, requires_iff.mpr ⟨hmissing _ (by simp), hcommands⟩, hversions⟩
      · rintro ⟨-, hcommands, hversions⟩
        rw [requires_iff] at hcommands
        exact ⟨⟨by simpa using hcommands.1, hversions⟩, hcommands.2⟩
  | _ =>
      refine iff_of_false (by simp [documentIssues]) fun h => ?_
      obtain ⟨es, hes⟩ := h.mapping
      cases hes

end CallPlan.Plan
