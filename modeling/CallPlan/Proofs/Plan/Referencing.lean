import CallPlan.Proofs.Plan.Document
import CallPlan.Proofs.Template.Splicing
import CallPlan.Proofs.Template.Verbatim

/-!
# Ids that can be referenced

An id can be referenced if a reference to a field of its result resolves to the text in that
field, whatever else the scope holds (`Referable`). The form of documents keeps points,
brackets and braces out of ids. What it admits can be referenced up to two cases
(`referable_iff`): an exclamation mark in front of the id makes the brace of the reference
a literal one, and a variable in the id is expanded before the result is looked up.
-/

namespace CallPlan.Plan

open Sequencing Template

/-! ## Names in references -/

/-- The name is not empty and has no character with a meaning in references. -/
def IsBare (name : String) : Prop :=
  name ≠ "" ∧ ∀ c ∈ name.toList, c ∉ ['.', '[', ']', '\x7b', '\x7d', '%']

instance (name : String) : Decidable (IsBare name) :=
  @instDecidableAnd _ _ _ (List.decidableBAll _ _)

theorem IsBare.isPlain {name : String} (h : IsBare name) : IsPlain name where
  component := ⟨h.1, fun c hc => by have hno := h.2 c hc; grind⟩
  constant hv := by simpa using h.2 '%' (percent_mem_of_hasVariable hv)

theorem isComponent_of_isId {id : String} (h : isId id = true) : IsComponent id := by
  simp only [isId, Bool.and_eq_true, Bool.not_eq_true', List.any_eq_false, decide_eq_true_eq] at h
  refine ⟨h.1, fun c hc => ?_⟩
  have hno := h.2 c hc
  simp only [breaksId, decide_eq_true_eq] at hno
  grind

/-! ## Texts that are one reference -/

/-- The text that refers to a field of a result. -/
def referenceText (id field : String) : String :=
  "\x7b" ++ id ++ "." ++ field ++ "\x7d"

theorem write_reference (id field : String) :
    Token.write [.reference ⟨id, field, none⟩] = referenceText id field := by
  apply String.toList_inj.mp
  simp [Token.write, Token.chars, Reference.chars, referenceText]

/-- A text that is one reference resolves to what the reference becomes. -/
theorem resolveText_reference {scope : Scope} {r : Reference} (h : r.Readable) :
    resolveText scope (Token.write [.reference r]) =
      splice scope (.reference r) >>= deliver scope := by
  have hreadable : ∀ t ∈ Token.joined [.reference r], t.Readable := by
    simpa [Token.joined, Token.Readable] using h
  have hspliced : spliceAll scope [.reference r] = splice scope (.reference r) := by
    rw [spliceAll, spliceAll]
    cases splice scope (.reference r) <;> simp [bind, Except.bind, pure, Except.pure]
  rw [resolveText_written hreadable, hspliced]

/-- A reference whose id has a variable cannot be followed where no variable is set. -/
theorem exists_splice_eq_error {scope : Scope} (hs : ∀ name, scope.environ name = none)
    {r : Reference} (h : HasVariable r.id.toList) :
    ∃ h, splice scope (.reference r) = .error h := by
  obtain ⟨c, hc⟩ := exists_expand_eq_error hs h
  have htarget : target scope r = .error c := bind_eq_error_iff.mpr (.inl hc)
  exact ⟨.cause c, bind_eq_error_iff.mpr (.inl (follow_of_target_eq_error htarget))⟩

/-- A text that begins with a literal brace resolves to no text that begins in another way. -/
theorem head?_of_resolveText_escaped {scope : Scope} {text s : String} {rest : List Char}
    (htext : text.toList = '\x7b' :: '!' :: rest)
    (h : resolveText scope text = .ok (.text s)) : s.toList.head? = some '\x7b' := by
  obtain ⟨spliced, hspliced, hdelivered⟩ := bind_eq_ok_iff.mp h
  rw [spliceText_eq, tokenize, htext, tokens.eq_2] at hspliced
  obtain ⟨_, hpushed, hall⟩ := bind_eq_ok_iff.mp hspliced
  obtain ⟨ts, -, rfl⟩ := map_eq_ok_iff.mp (mapError_eq_ok_iff.mp hpushed)
  rw [spliceAll_push] at hall
  obtain ⟨behind, -, rfl⟩ := map_eq_ok_iff.mp hall
  have hnot : ¬ Payload.Named (String.ofList ['\x7b'] ++ behind) :=
    Payload.not_named_of_head? (by simp)
  rw [deliver_of_not_named scope hnot] at hdelivered
  cases hdelivered
  simp

/-! ## Ids of results -/

/-- In every scope in which a field of the result with this id holds a text that names no
files, a reference to the field resolves to that text. -/
def Referable (id : String) : Prop :=
  ∀ (scope : Scope) (field text : String), IsBare field → ¬ Payload.Named text →
    Publishes scope id field (.text text) →
      resolveText scope (referenceText id field) = .ok (.text text)

/-- A scope with one result, which has one field. No variable is set. -/
def soleScope (id : String) : Scope where
  results other := if other = id then some (.record [("f", .text "v")]) else none
  environ _ := none
  files := .empty
  base := .ok ⟨.relative, []⟩
  project := .shipped

theorem publishes_soleScope (id : String) : Publishes (soleScope id) id "f" (.text "v") :=
  ⟨.record [("f", .text "v")], by simp [soleScope], by rfl⟩

/-- What a reference resolves to in the scope with one result, if the id can be referenced. -/
theorem Referable.resolveText_eq {id : String} (h : Referable id) :
    resolveText (soleScope id) (referenceText id "f") = .ok (.text "v") :=
  h _ "f" "v" (by decide) (Payload.not_named_of_head? (by decide))
    (publishes_soleScope id)

theorem Referable.unescaped {id : String} (h : Referable id) : id.toList.head? ≠ some '!' := by
  intro hhead
  obtain ⟨cs, hcs⟩ := List.head?_eq_some_iff.mp hhead
  have htext : (referenceText id "f").toList = '\x7b' :: '!' :: (cs ++ ['.', 'f', '\x7d']) := by
    simp [referenceText, hcs]
  have hbrace := head?_of_resolveText_escaped htext h.resolveText_eq
  simp at hbrace

theorem readable_reference {id field : String} (hid : isId id = true)
    (hhead : id.toList.head? ≠ some '!') (hfield : IsBare field) :
    (Reference.mk id field none).Readable where
  id := isComponent_of_isId hid
  unescaped := hhead
  field := hfield.isPlain.component
  element := nofun

theorem Referable.constant {id : String} (hid : isId id = true) (h : Referable id) :
    ¬ HasVariable id.toList := by
  intro hv
  have hf : IsBare "f" := by decide
  have hreadable := readable_reference hid h.unescaped hf
  obtain ⟨e, he⟩ : ∃ e, splice (soleScope id) (.reference ⟨id, "f", none⟩) = .error e :=
    exists_splice_eq_error (fun _ => rfl) hv
  have hresolved := h.resolveText_eq
  rw [← write_reference, resolveText_reference hreadable, he] at hresolved
  cases hresolved

theorem referable_of_constant {id : String} (hid : isId id = true)
    (hhead : id.toList.head? ≠ some '!') (hv : ¬ HasVariable id.toList) : Referable id := by
  intro scope field text hfield hn hp
  have hplain : IsPlain id := ⟨isComponent_of_isId hid, hv⟩
  rw [← write_reference, resolveText_reference (readable_reference hid hhead hfield),
    splice_reference hplain hfield.isPlain hp]
  exact deliver_of_not_named scope hn

/-- **Which ids can be referenced.** Of the ids in a document that passes its checks, these
are the ones that neither begin with an exclamation mark nor have a variable in them. -/
theorem referable_iff {doc : Value} (hdoc : (validate doc).ok = true) {id : String}
    (hid : id ∈ (commandValues doc).map (textField · "resultsID")) :
    Referable id ↔ id.toList.head? ≠ some '!' ∧ ¬ HasVariable id.toList := by
  obtain ⟨x, hx, rfl⟩ := List.mem_map.mp hid
  have hform := isId_of_ok_validate hdoc hx
  exact ⟨fun h => ⟨h.unescaped, h.constant hform⟩,
    fun ⟨hhead, hv⟩ => referable_of_constant hform hhead hv⟩

/-! ## A document whose ids cannot all be referenced -/

def markedCommand (id : String) : Value :=
  .record [("objectType", .text "S3"), ("method", .text "getObject"), ("resultsID", .text id)]

/-- A document that passes its checks, with an exclamation mark in front of one id, a variable
as another, and both marks in places of a third where they mean nothing. -/
def markedDocument : Value :=
  .record [("commands",
    .list [markedCommand "!a", markedCommand "%A%", markedCommand "a!100%"])]

theorem ok_validate_markedDocument : (validate markedDocument).ok = true := by
  decide

theorem referable_iff_markedDocument :
    (validate markedDocument).ok = true
      ∧ ¬ Referable "!a" ∧ ¬ Referable "%A%" ∧ Referable "a!100%" := by
  refine ⟨ok_validate_markedDocument, ?_, ?_, ?_⟩
  · rw [referable_iff ok_validate_markedDocument (by decide)]
    decide
  · rw [referable_iff ok_validate_markedDocument (by decide)]
    decide
  · rw [referable_iff ok_validate_markedDocument (by decide)]
    decide

/-- The document passes, but a reference to the first id in it stays a text. -/
theorem resolveText_escapedId :
    (validate markedDocument).ok = true
      ∧ "!a" ∈ (commandValues markedDocument).map (textField · "resultsID")
      ∧ IsBare "f" ∧ ¬ Payload.Named "v" ∧ Publishes (soleScope "!a") "!a" "f" (.text "v")
      ∧ resolveText (soleScope "!a") "\x7b!a.f\x7d" = .ok (.text "\x7ba.f\x7d") :=
  ⟨ok_validate_markedDocument, by decide, by decide,
    Payload.not_named_of_head? (by decide), publishes_soleScope _, by cbv⟩

end CallPlan.Plan
