import CallPlan.Plan.Document
import CallPlan.Proofs.Plan.Form
import CallPlan.Proofs.Sequencing
import CallPlan.Proofs.Value.TextKeys

/-!
# What a document guarantees of its plan

A document that becomes a plan has passed its checks, so no two commands of the plan have
one id (`nodup_ids`), and every id is one that the form of documents admits
(`isId_of_ok_validate`). Documents that are read from files have text keys only
(`textKeyed_of_readDocument`), and so have the parameters and the expected properties of
their commands.
-/

namespace CallPlan.Plan

open Sequencing

/-! ## Deviations from the form are errors -/

/-- All findings are errors. -/
def OnlyErrors (issues : List Issue) : Prop :=
  ∀ i ∈ issues, i.severity = .error

@[simp] theorem onlyErrors_nil : OnlyErrors [] := by
  simp [OnlyErrors]

@[simp] theorem onlyErrors_append {is js : List Issue} :
    OnlyErrors (is ++ js) ↔ OnlyErrors is ∧ OnlyErrors js := by
  simp [OnlyErrors, or_imp, forall_and]

@[simp] theorem onlyErrors_violation (place message : String) :
    OnlyErrors [violation place message] := by
  simp [OnlyErrors, violation]

@[simp] theorem onlyErrors_wrongType (place : String) (v : Value) (type : String) :
    OnlyErrors [wrongType place v type] :=
  onlyErrors_violation _ _

theorem onlyErrors_nonEmptyIssues (place : String) (v : Value) :
    OnlyErrors (nonEmptyIssues place v) := by
  unfold nonEmptyIssues
  split
  · split <;> simp
  · simp

theorem onlyErrors_idIssues (place : String) (v : Value) : OnlyErrors (idIssues place v) := by
  unfold idIssues
  split
  · split <;> simp
  · simp

theorem onlyErrors_mappingIssues (place : String) (v : Value) :
    OnlyErrors (mappingIssues place v) := by
  unfold mappingIssues
  split <;> simp

theorem onlyErrors_fieldIssues {check : String → Value → List Issue}
    (hc : ∀ place v, OnlyErrors (check place v)) (place name : String)
    (es : List (Value × Value)) : OnlyErrors (fieldIssues check place name es) := by
  unfold fieldIssues
  split
  · exact hc _ _
  · simp

theorem onlyErrors_missingIssues (place : String) (names : List String)
    (es : List (Value × Value)) : OnlyErrors (missingIssues place names es) := by
  intro i hi
  obtain ⟨name, -, rfl⟩ := List.mem_map.mp hi
  rfl

theorem onlyErrors_commandIssues (place : String) (v : Value) :
    OnlyErrors (commandIssues place v) := by
  unfold commandIssues
  split
  · simp [onlyErrors_missingIssues, onlyErrors_fieldIssues onlyErrors_nonEmptyIssues,
      onlyErrors_fieldIssues onlyErrors_mappingIssues, onlyErrors_fieldIssues onlyErrors_idIssues]
  · simp

theorem onlyErrors_itemIssues (place : String) (n : Nat) (vs : List Value) :
    OnlyErrors (itemIssues place n vs) := by
  induction vs generalizing n with
  | nil => exact onlyErrors_nil
  | cons v vs ih => exact onlyErrors_append.mpr ⟨onlyErrors_commandIssues _ _, ih _⟩

theorem onlyErrors_commandsIssues (place : String) (v : Value) :
    OnlyErrors (commandsIssues place v) := by
  unfold commandsIssues
  split
  · exact onlyErrors_itemIssues _ _ _
  · simp

theorem onlyErrors_versionsIssues (place : String) (v : Value) :
    OnlyErrors (versionsIssues place v) := by
  unfold versionsIssues
  split
  · intro i hi
    obtain ⟨e, -, hi⟩ := List.mem_flatMap.mp hi
    exact onlyErrors_nonEmptyIssues _ _ i hi
  · simp

/-- Every deviation from the form is an error. -/
theorem onlyErrors_documentIssues (v : Value) : OnlyErrors (documentIssues v) := by
  unfold documentIssues
  split
  · simp [onlyErrors_missingIssues, onlyErrors_fieldIssues onlyErrors_versionsIssues,
      onlyErrors_fieldIssues onlyErrors_commandsIssues]
  · simp

theorem ok_ofIssues_iff {issues : List Issue} :
    (Report.ofIssues issues).ok = true ↔ ∀ i ∈ issues, i.severity ≠ .error := by
  simp [Report.ok, Report.ofIssues]

/-! ## Ids occur once -/

/-- No finding is made exactly where the ids are different from each other and from those
seen before. -/
theorem duplicateIssues_eq_nil_iff {seen : List (String × Nat)} {n : Nat} {ids : List String} :
    duplicateIssues seen n ids = [] ↔ ids.Nodup ∧ ∀ id ∈ ids, id ∉ Fields.keys seen := by
  induction ids generalizing seen n with
  | nil => simp [duplicateIssues]
  | cons id ids ih =>
      rw [duplicateIssues]
      cases hseen : Fields.get? id seen with
      | some first =>
          have hmem : ¬ id ∉ Fields.keys seen := by simp [← Fields.get?_eq_none_iff, hseen]
          simp [hmem]
      | none =>
          have hfresh : id ∉ Fields.keys seen := Fields.get?_eq_none_iff.mp hseen
          simp only [ih, Fields.keys_append, List.nodup_cons, List.mem_append, not_or,
            List.forall_mem_cons]
          constructor
          · rintro ⟨hn, hall⟩
            exact ⟨⟨fun hm => (hall id hm).2 (by simp [Fields.keys]), hn⟩, hfresh,
              fun other ho => (hall other ho).1⟩
          · rintro ⟨⟨hid, hn⟩, -, hall⟩
            refine ⟨hn, fun other ho => ⟨hall other ho, ?_⟩⟩
            simp only [Fields.keys, List.map_cons, List.map_nil, List.mem_singleton]
            rintro rfl
            exact hid ho

theorem onlyErrors_duplicateIssues (seen : List (String × Nat)) (n : Nat) (ids : List String) :
    OnlyErrors (duplicateIssues seen n ids) := by
  induction ids generalizing seen n with
  | nil => exact onlyErrors_nil
  | cons id ids ih =>
      unfold duplicateIssues
      split
      · rintro i (_ | ⟨_, hi⟩)
        · rfl
        · exact ih _ _ i hi
      · exact ih _ _

theorem eq_nil_of_onlyErrors {issues : List Issue} (h : OnlyErrors issues)
    (hn : ∀ i ∈ issues, i.severity ≠ .error) : issues = [] :=
  List.eq_nil_iff_forall_not_mem.mpr fun i hi => hn i hi (h i hi)

/-- A document that passes is of the right form. -/
theorem documentIssues_eq_nil_of_ok_validate {v : Value} (h : (validate v).ok = true) :
    documentIssues v = [] := by
  unfold validate at h
  split at h
  · assumption
  · exact eq_nil_of_onlyErrors (onlyErrors_documentIssues v) fun i hi =>
      ok_ofIssues_iff.mp h i (Sorting.mem_sort.mpr hi)

/-- The content passes if no id occurs twice. An empty list of commands is a warning only. -/
theorem ok_contentIssues_iff {v : Value} :
    (Report.ofIssues (contentIssues v)).ok = true ↔
      ((commandValues v).map (textField · "resultsID")).Nodup := by
  rw [ok_ofIssues_iff]
  constructor
  · intro h
    have hdup := eq_nil_of_onlyErrors (onlyErrors_duplicateIssues _ _ _) fun i hi =>
      h i (List.mem_append_right _ hi)
    exact (duplicateIssues_eq_nil_iff.mp hdup).1
  · intro hn i hi
    have hdup : duplicateIssues [] 0 ((commandValues v).map (textField · "resultsID")) = [] :=
      duplicateIssues_eq_nil_iff.mpr ⟨hn, by simp [Fields.keys]⟩
    rw [contentIssues, hdup, List.append_nil] at hi
    split at hi
    · obtain rfl := List.mem_singleton.mp hi
      simp [emptyIssue]
    · cases hi

/-- A document passes exactly if it is of the right form and no id of a command occurs twice. -/
theorem ok_validate_iff {v : Value} :
    (validate v).ok = true ↔
      HasForm v ∧ ((commandValues v).map (textField · "resultsID")).Nodup := by
  by_cases hform : documentIssues v = []
  · have hreport : validate v = .ofIssues (contentIssues v) := by
      rw [validate, hform]
    rw [hreport, ok_contentIssues_iff, ← documentIssues_eq_nil_iff]
    simp [hform]
  · refine iff_of_false (fun h => hform (documentIssues_eq_nil_of_ok_validate h)) fun h => ?_
    exact hform (documentIssues_eq_nil_iff.mpr h.1)

/-! ## Commands are of the right form -/

theorem commandValues_of_field? {v : Value} {vs : List Value}
    (h : v.field? "commands" = some (.list vs)) : commandValues v = vs := by
  simp [commandValues, h]

theorem HasForm.isCommand {v x : Value} (h : HasForm v) (hx : x ∈ commandValues v) :
    IsCommand x := by
  obtain ⟨_, hfield, vs, rfl, hall⟩ := h.commands
  rw [commandValues_of_field? hfield] at hx
  exact hall x hx

theorem Requires.field?_eq_text {v : Value} {name : String} {P : Value → Prop}
    (h : Requires v name P) (hP : ∀ x, P x → ∃ s, x = .text s) :
    v.field? name = some (.text (textField v name)) := by
  obtain ⟨x, hfield, hx⟩ := h
  obtain ⟨s, rfl⟩ := hP x hx
  simp [textField, hfield]

theorem IsCommand.field?_id {v : Value} (h : IsCommand v) :
    v.field? "resultsID" = some (.text (textField v "resultsID")) :=
  h.id.field?_eq_text fun _ ⟨s, hs, _⟩ => ⟨s, hs⟩

/-- A command of the right form has an id of the right form. -/
theorem IsCommand.isId {v : Value} (h : IsCommand v) : isId (textField v "resultsID") = true := by
  obtain ⟨x, hfield, hid⟩ := h.id
  obtain rfl : x = .text (textField v "resultsID") :=
    Option.some.inj (hfield.symm.trans h.field?_id)
  exact isIdText_text.mp hid

/-- In a document that passes every command has an id of the right form. -/
theorem isId_of_ok_validate {v : Value} (h : (validate v).ok = true) {x : Value}
    (hx : x ∈ commandValues v) : isId (textField x "resultsID") = true :=
  ((ok_validate_iff.mp h).1.isCommand hx).isId

section

variable {source : Option Path} {v : Value} {plan : Plan}

theorem ofDocument_eq_ok_iff :
    ofDocument source v = .ok plan ↔
      (validate v).ok = true
        ∧ plan = ⟨(commandValues v).map Command.ofValue, versionsOf v, source⟩ := by
  unfold ofDocument
  simp only
  split <;> simp [*, eq_comm]

/-- The commands of a plan have different ids. -/
theorem nodup_ids (h : ofDocument source v = .ok plan) :
    (plan.commands.map Command.id).Nodup := by
  obtain ⟨hok, rfl⟩ := ofDocument_eq_ok_iff.mp h
  simpa [Function.comp_def, Command.ofValue] using (ok_validate_iff.mp hok).2

/-! ## Keys are texts -/

theorem textKeyed_of_mem_commandValues (hv : v.textKeyed = true) {x : Value}
    (hx : x ∈ commandValues v) : x.textKeyed = true := by
  unfold commandValues at hx
  split at hx
  · next vs hvs =>
    have hlist : (Value.list vs).textKeyed = true := Value.textKeyed_of_field? hv hvs
    exact Value.textKeyed_of_mem hlist hx
  · cases hx

/-- The parameters of commands from a document with text keys have text keys. -/
theorem textKeyed_params (hv : v.textKeyed = true) (h : ofDocument source v = .ok plan)
    {c : Command} (hc : c ∈ plan.commands) : c.params.textKeyed = true := by
  obtain ⟨-, rfl⟩ := ofDocument_eq_ok_iff.mp h
  obtain ⟨x, hx, rfl⟩ := List.mem_map.mp hc
  simp only [Command.ofValue]
  cases hp : x.field? "params" with
  | none => rfl
  | some params => exact Value.textKeyed_of_field? (textKeyed_of_mem_commandValues hv hx) hp

/-- The expected properties of commands from a document with text keys have texts as names. -/
theorem kind_name_of_mem_expected (hv : v.textKeyed = true) (h : ofDocument source v = .ok plan)
    {c : Command} (hc : c ∈ plan.commands) {e : Value × Value} (he : e ∈ c.expected) :
    e.1.kind = .text := by
  obtain ⟨-, rfl⟩ := ofDocument_eq_ok_iff.mp h
  obtain ⟨x, hx, rfl⟩ := List.mem_map.mp hc
  simp only [Command.ofValue] at he
  cases hf : x.field? "expectedResults" with
  | none => simp [hf] at he
  | some wanted =>
      have hw := Value.textKeyed_of_field? (textKeyed_of_mem_commandValues hv hx) hf
      cases wanted with
      | map es =>
          simp only [hf, Value.entries?, Option.bind_some, Option.getD_some] at he
          exact (Value.textKeyed_of_mem_entries hw he).1
      | _ => simp [hf, Value.entries?] at he

end

/-- A JSON document is the data that its text writes. -/
theorem jsonDocument_of_decodeText {bytes : List UInt8} {text : String}
    (h : Text.Utf8.decodeText bytes = .ok text) :
    jsonDocument bytes = (Json.ofText text).map Value.ofJson := by
  have hd : decoded bytes = .ok text := by rw [decoded, h]; rfl
  rw [jsonDocument, hd, ok_bind]
  cases Json.ofText text with
  | error e => rfl
  | ok data => rfl

theorem textKeyed_of_tomlDocument {bytes : List UInt8} {v : Value}
    (h : tomlDocument bytes = .ok v) : v.textKeyed = true := by
  obtain ⟨text, -, h⟩ := bind_eq_ok_iff.mp h
  obtain ⟨members, -, h⟩ := bind_eq_ok_iff.mp h
  cases h
  exact Value.textKeyed_ofToml _

theorem textKeyed_of_jsonDocument {bytes : List UInt8} {v : Value}
    (h : jsonDocument bytes = .ok v) : v.textKeyed = true := by
  obtain ⟨text, -, h⟩ := bind_eq_ok_iff.mp h
  obtain ⟨data, -, h⟩ := bind_eq_ok_iff.mp h
  cases h
  exact Value.textKeyed_ofJson _

/-- A document that is read from a file has text keys, whatever the file writes. -/
theorem textKeyed_of_readDocument {fs : FileSystem} {p : Path} {v : Value}
    (h : readDocument fs p = .ok v) : v.textKeyed = true := by
  unfold readDocument at h
  split at h
  · split at h <;> cases h
  · split at h
    · exact textKeyed_of_tomlDocument (mapError_eq_ok_iff.mp h)
    · exact textKeyed_of_jsonDocument (mapError_eq_ok_iff.mp h)

end CallPlan.Plan
