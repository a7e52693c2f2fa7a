import Mathlib.Data.List.Nodup
import CallPlan.Proofs.Plan.Document

/-!
# Which documents are accepted

The checks of a document come in two passes, of which the second one takes it for granted that
the first one has found nothing. Together they accept exactly the values that are of the form of
documents and whose commands have different ids: `IsDocument` says so in one place and without the
checks. The plan of an accepted document has one command for each element of its list
(`Describes`), and every other value is refused with the findings about it.
-/

namespace CallPlan.Plan

/-! ## Acceptance -/

/-- What a value must be to be a plan document. -/
structure IsDocument (v : Value) : Prop extends HasForm v where
  distinct : ∀ vs, v.field? "commands" = some (.list vs) → (vs.map (·.field? "resultsID")).Nodup

variable {v : Value}

/-- Commands of the right form have different ids exactly if the texts of these are different. -/
theorem nodup_fields_iff {vs : List Value} (h : ∀ x ∈ vs, IsCommand x) :
    (vs.map (·.field? "resultsID")).Nodup ↔ (vs.map (textField · "resultsID")).Nodup := by
  have hmap : vs.map (·.field? "resultsID") =
      (vs.map (textField · "resultsID")).map fun s => some (.text s) := by
    rw [List.map_map]
    exact List.map_congr_left fun x hx => (h x hx).field?_id
  rw [hmap]
  refine List.nodup_map_iff fun s t hst => ?_
  cases hst
  rfl

/-- The two passes accept exactly the plan documents. -/
theorem ok_validate_iff_isDocument : (validate v).ok = true ↔ IsDocument v := by
  rw [ok_validate_iff]
  constructor
  · rintro ⟨hform, hn⟩
    refine ⟨hform, fun vs hvs => ?_⟩
    rw [commandValues_of_field? hvs] at hn
    have hall : ∀ x ∈ vs, IsCommand x := fun x hx =>
      hform.isCommand (by rwa [commandValues_of_field? hvs])
    exact (nodup_fields_iff hall).mpr hn
  · rintro ⟨hform, hdistinct⟩
    obtain ⟨_, hvs, vs, rfl, hall⟩ := hform.commands
    rw [commandValues_of_field? hvs]
    exact ⟨hform, (nodup_fields_iff hall).mp (hdistinct vs hvs)⟩

instance : DecidablePred IsDocument := fun _ =>
  decidable_of_iff _ ok_validate_iff_isDocument

/-! ## The plan of a document -/

/-- The command has what the value says. Parameters that are not given are empty, and so are
expected properties. -/
structure Describes (v : Value) (c : Command) : Prop where
  objectType : v.field? "objectType" = some (.text c.objectType)
  method : v.field? "method" = some (.text c.method)
  id : v.field? "resultsID" = some (.text c.id)
  params : (v.field? "params").getD (.map []) = c.params
  expected : (v.field? "expectedResults").getD (.map []) = .map c.expected

theorem IsCommand.describes (h : IsCommand v) : Describes v (.ofValue v) where
  objectType := h.objectType.field?_eq_text fun _ ⟨s, hs, _⟩ => ⟨s, hs⟩
  method := h.method.field?_eq_text fun _ ⟨s, hs, _⟩ => ⟨s, hs⟩
  id := h.field?_id
  params := rfl
  expected := by
    cases hfield : v.field? "expectedResults" with
    | none => simp [Command.ofValue, hfield]
    | some x =>
        obtain ⟨es, rfl⟩ := h.expected x hfield
        simp [Command.ofValue, hfield, Value.entries?]

/-- The commands of a plan are those of the document, in their order. -/
theorem HasForm.describes (h : HasForm v) :
    List.Forall₂ Describes (commandValues v) ((commandValues v).map Command.ofValue) := by
  rw [List.forall₂_map_right_iff, List.forall₂_same]
  exact fun x hx => (h.isCommand hx).describes

/-- **Which documents are accepted.** Exactly the plan documents pass the checks. A plan document
becomes the plan with one command for each element of its list of commands, in their order, with
what the element says. Any other value is refused, with the report of the checks. -/
theorem ofDocument_accepts (source : Option Path) (v : Value) :
    ((validate v).ok = true ↔ IsDocument v)
    ∧ (IsDocument v → ∃ vs plan, v.field? "commands" = some (.list vs)
        ∧ ofDocument source v = .ok plan ∧ List.Forall₂ Describes vs plan.commands)
    ∧ (¬ IsDocument v → ∃ c, ofDocument source v = .error c
        ∧ c.kind = .config ∧ c.code = "config.invalid" ∧ c.report? = some (validate v)) := by
  refine ⟨ok_validate_iff_isDocument, fun h => ?_, fun h => ?_⟩
  · obtain ⟨_, hvs, vs, rfl, -⟩ := h.commands
    have hok := ok_validate_iff_isDocument.mpr h
    refine ⟨vs, _, hvs, ofDocument_eq_ok_iff.mpr ⟨hok, rfl⟩, ?_⟩
    rw [← commandValues_of_field? hvs]
    exact h.toHasForm.describes
  · have hok : (validate v).ok ≠ true := mt ok_validate_iff_isDocument.mp h
    refine ⟨.invalidPlan (validate v), ?_, rfl, rfl, rfl⟩
    simp [ofDocument, hok]

/-! ## A document, and one with an id twice -/

/-- A document of two commands, of which the first one has no parameters. -/
def twoCommands (first second : String) : Value :=
  .record [("commands", .list [
    .record [("objectType", .text "object"), ("method", .text "method"),
      ("resultsID", .text first), ("expectedResults", .record [("x", .int 1)])],
    .record [("objectType", .text "object"), ("method", .text "method"),
      ("resultsID", .text second), ("params", .record [("y", .text "\x7ba.x\x7d")])]])]

theorem ofDocument_accepts_twoCommands :
    (∃ vs plan, (twoCommands "a" "b").field? "commands" = some (.list vs)
      ∧ ofDocument none (twoCommands "a" "b") = .ok plan ∧ List.Forall₂ Describes vs plan.commands)
    ∧ ∃ c, ofDocument none (twoCommands "a" "a") = .error c
      ∧ c.kind = .config ∧ c.code = "config.invalid"
      ∧ c.report? = some (validate (twoCommands "a" "a")) :=
  ⟨(ofDocument_accepts none (twoCommands "a" "b")).2.1 (by decide),
    (ofDocument_accepts none (twoCommands "a" "a")).2.2 (by decide)⟩

end CallPlan.Plan
