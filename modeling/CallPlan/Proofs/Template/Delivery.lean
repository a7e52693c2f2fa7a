import CallPlan.Proofs.File.Names
import CallPlan.Proofs.Template.Splicing

/-!
# Why a payload is not delivered

A text that has been spliced may name files. Delivering them fails with one of four codes
(`deliver_eq_error`), or with a fault of the surroundings: of a working directory that is
gone, or of a project whose archive suffixes cannot be read (`Undelivering`). File operations
raise faults, but all that can come up here are reported (`Reportable`): only a path with a
null character would not be, and no such path gets that far.
-/

namespace CallPlan

open Sequencing

namespace Payload

/-- The codes of payloads that cannot be loaded. -/
def loadCodes : List String :=
  ["payload.not_found", "payload.duplicate_entry", "payload.unreadable"]

/-- What ends loading early is reported as a failure of it. -/
def Reportable (h : Halt) : Prop :=
  ∃ c, reported h = .cause c ∧ c.code ∈ loadCodes

theorem reportable_file {e : FileError} (h : e.cause ≠ .nullCharacter) :
    Reportable (.fault (.file e)) :=
  ⟨.payloadUnreadable e, by simp [reported, h], by simp [Failure.Cause.code, loadCodes]⟩

theorem reportable_cause {c : Failure.Cause} (h : c.code ∈ loadCodes) :
    Reportable (.cause c) :=
  ⟨c, rfl, h⟩

section

variable {project : Project} {fs : FileSystem} {base : Path}

theorem nullFree_of_existing {raw : String} {p : Path} (h : existing fs base raw = .ok p) :
    p.NullFree := by
  obtain ⟨b, hb, h⟩ := bind_eq_ok_iff.mp h
  split at h
  · next ht =>
    cases h
    subst ht
    exact FileSystem.nullFree_of_test (mapError_eq_ok_iff.mp hb)
  · cases h

theorem reportable_existing {raw : String} {h : Halt} (he : existing fs base raw = .error h) :
    Reportable h := by
  rcases bind_eq_error_iff.mp he with he | ⟨b, -, he⟩
  · obtain ⟨e, ht, rfl⟩ := mapError_eq_error_iff.mp he
    exact reportable_file (FileSystem.cause_of_test_eq_error ht)
  · split at he
    · cases he
    · cases he
      exact reportable_cause (by simp [Failure.Cause.code, loadCodes])

theorem nullFree_of_allExisting {raws : List String} {ps : List Path}
    (h : allExisting fs base raws = .ok ps) : ∀ p ∈ ps, p.NullFree := by
  induction raws generalizing ps with
  | nil => cases h; simp
  | cons raw raws ih =>
      obtain ⟨p, hp, h⟩ := bind_eq_ok_iff.mp h
      obtain ⟨qs, hqs, h⟩ := bind_eq_ok_iff.mp h
      cases h
      rintro q (_ | ⟨_, hq⟩)
      · exact nullFree_of_existing hp
      · exact ih hqs q hq

theorem reportable_allExisting {raws : List String} {h : Halt}
    (he : allExisting fs base raws = .error h) : Reportable h := by
  induction raws with
  | nil => cases he
  | cons raw raws ih =>
      rcases bind_eq_error_iff.mp he with he | ⟨p, -, he⟩
      · exact reportable_existing he
      · rcases bind_eq_error_iff.mp he with he | ⟨qs, -, he⟩
        · exact ih he
        · cases he

theorem reportable_add {sources : List Archive.Source} {s : Archive.Source} {h : Halt}
    (he : Archive.add sources s = .error h) : Reportable h := by
  unfold Archive.add at he
  split at he <;> cases he
  exact reportable_cause (by simp [Failure.Cause.code, loadCodes])

theorem reportable_accept {sources more : List Archive.Source} {h : Halt}
    (he : Archive.accept fs sources more = .error h) : Reportable h := by
  induction more generalizing sources with
  | nil => cases he
  | cons s more ih =>
      rcases bind_eq_error_iff.mp he with he | ⟨b, -, he⟩
      · obtain ⟨e, ht, rfl⟩ := mapError_eq_error_iff.mp he
        exact reportable_file (FileSystem.cause_of_test_eq_error ht)
      · split at he
        · rcases bind_eq_error_iff.mp he with he | ⟨added, -, he⟩
          · exact reportable_add he
          · exact ih he
        · exact ih he

theorem reportable_gather {sources : List Archive.Source} {ps : List Path} {h : Halt}
    (hps : ∀ p ∈ ps, p.NullFree) (he : Archive.gather fs sources ps = .error h) :
    Reportable h := by
  induction ps generalizing sources with
  | nil => cases he
  | cons p ps ih =>
      obtain ⟨hp, hps⟩ := List.forall_mem_cons.mp hps
      rcases bind_eq_error_iff.mp he with he | ⟨b, -, he⟩
      · obtain ⟨e, ht, rfl⟩ := mapError_eq_error_iff.mp he
        exact reportable_file (FileSystem.cause_of_test_eq_error ht)
      · split at he
        · rcases bind_eq_error_iff.mp he with he | ⟨more, -, he⟩
          · obtain ⟨e, hs, rfl⟩ := mapError_eq_error_iff.mp he
            exact reportable_file (Archive.cause_of_found_eq_error hp hs)
          · rcases bind_eq_error_iff.mp he with he | ⟨accepted, -, he⟩
            · exact reportable_accept he
            · exact ih hps he
        · rcases bind_eq_error_iff.mp he with he | ⟨added, -, he⟩
          · exact reportable_add he
          · exact ih hps he

theorem reportable_build {ps : List Path} {h : Halt} (hps : ∀ p ∈ ps, p.NullFree)
    (he : Archive.build fs ps = .error h) : Reportable h := by
  rcases bind_eq_error_iff.mp (map_eq_error_iff.mp he) with he | ⟨found, hf, he⟩
  · exact reportable_gather hps he
  · obtain ⟨e, hi, rfl⟩ := mapError_eq_error_iff.mp he
    have hfound := Archive.namesOnly_gather (by simp [Archive.NamesOnly]) hps hf
    have horder : Archive.NamesOnly (Archive.inOrder found) :=
      fun s hs => hfound s (Sorting.mem_sort.mp hs)
    exact reportable_file (Archive.cause_of_items_eq_error horder hi)

theorem isArchive_eq_error {p : Path} {h : Halt} (he : isArchive project fs p = .error h) :
    Reportable h ∨ ∃ f, archiveSuffixes project = .error f ∧ h = .fault f := by
  rcases bind_eq_error_iff.mp he with he | ⟨b, -, he⟩
  · obtain ⟨e, ht, rfl⟩ := mapError_eq_error_iff.mp he
    exact .inl (reportable_file (FileSystem.cause_of_test_eq_error ht))
  · split at he
    · rcases bind_eq_error_iff.mp he with he | ⟨suffixes, -, he⟩
      · obtain ⟨f, hf, rfl⟩ := mapError_eq_error_iff.mp he
        exact .inr ⟨f, hf, rfl⟩
      · cases he
    · cases he

theorem bytesOf_eq_error {ps : List Path} {h : Halt} (hps : ∀ p ∈ ps, p.NullFree)
    (he : bytesOf project fs ps = .error h) :
    Reportable h ∨ ∃ f, archiveSuffixes project = .error f ∧ h = .fault f := by
  unfold bytesOf at he
  split at he
  · rcases bind_eq_error_iff.mp he with he | ⟨b, -, he⟩
    · exact isArchive_eq_error he
    · split at he
      · obtain ⟨e, hr, rfl⟩ := mapError_eq_error_iff.mp he
        exact .inl (reportable_file
          (FileSystem.cause_of_read_eq_error (hps _ (List.mem_cons_self ..)) hr))
      · exact .inl (reportable_build hps he)
  · exact .inl (reportable_build hps he)

/-- Faults are reported or left as they are. -/
theorem reportable_or_eq (f : Fault) :
    Reportable (.fault f) ∨ reported (.fault f) = .fault f := by
  cases f with
  | file e =>
      by_cases hn : e.cause = .nullCharacter
      · exact .inr (by simp [reported, hn])
      · exact .inl (reportable_file hn)
  | _ => exact .inr rfl

/-- Loading fails with one of three codes, unless the project does not say which suffixes
archives have. -/
theorem load_eq_error {raws : List String} {h : Halt} (he : load project fs base raws = .error h) :
    (∃ c, h = .cause c ∧ c.code ∈ loadCodes)
      ∨ ∃ f, archiveSuffixes project = .error f ∧ h = .fault f := by
  obtain ⟨h', hbytes, rfl⟩ := mapError_eq_error_iff.mp he
  have hcases : Reportable h' ∨ ∃ f, archiveSuffixes project = .error f ∧ h' = .fault f := by
    rcases bind_eq_error_iff.mp hbytes with hall | ⟨ps, hps, hbytes⟩
    · exact .inl (reportable_allExisting hall)
    · exact bytesOf_eq_error (nullFree_of_allExisting hps) hbytes
  rcases hcases with hr | ⟨f, hf, rfl⟩
  · exact .inl hr
  · exact (reportable_or_eq f).imp_right fun hr => ⟨f, hf, hr⟩

theorem paths?_eq_error {text : String} {c : Failure.Cause} (h : paths? text = .error c) :
    c = .emptyPath text := by
  unfold paths? at h
  split at h
  · cases h
  · simp only at h
    split at h <;> cases h
    rfl

end

end Payload

namespace Template

/-- The codes of texts whose files are not delivered. -/
def deliveryCodes : List String :=
  "payload.empty_path" :: Payload.loadCodes

/-- The surroundings keep any files from being delivered: there is no directory to begin in, or the
project does not say which suffixes archives have. -/
def Undelivering (scope : Scope) (f : Fault) : Prop :=
  scope.base = .error f ∨ Payload.archiveSuffixes scope.project = .error f

theorem deliver_eq_error {scope : Scope} {text : String} {h : Halt}
    (he : deliver scope text = .error h) :
    (∃ c, h = .cause c ∧ c.code ∈ deliveryCodes)
      ∨ ∃ f raws, h = .fault f ∧ Payload.paths? text = .ok (some raws) ∧ Undelivering scope f := by
  rcases bind_eq_error_iff.mp he with he | ⟨paths, hpaths, he⟩
  · obtain ⟨c, hc, rfl⟩ := mapError_eq_error_iff.mp he
    refine .inl ⟨c, rfl, ?_⟩
    simp [Payload.paths?_eq_error hc, Failure.Cause.code, deliveryCodes]
  · cases paths with
    | none => cases he
    | some raws =>
        have hnamed := mapError_eq_ok_iff.mp hpaths
        rcases bind_eq_error_iff.mp he with he | ⟨base, -, he⟩
        · obtain ⟨f, hf, rfl⟩ := mapError_eq_error_iff.mp he
          exact .inr ⟨f, raws, rfl, hnamed, .inl hf⟩
        rcases bind_eq_error_iff.mp he with he | ⟨bytes, -, he⟩
        · refine (Payload.load_eq_error he).imp ?_ ?_
          · rintro ⟨c, rfl, hc⟩
            exact ⟨c, rfl, List.mem_cons_of_mem _ hc⟩
          · rintro ⟨f, hf, rfl⟩
            exact ⟨f, raws, rfl, hnamed, .inr hf⟩
        · cases he

/-- A text resolves unless it is not spliced or its files are not delivered. -/
theorem resolveText_eq_error_iff {scope : Scope} {text : String} {h : Halt} :
    resolveText scope text = .error h ↔
      spliceText scope text = .error h
      ∨ ∃ s, spliceText scope text = .ok s ∧ deliver scope s = .error h :=
  bind_eq_error_iff

end Template

end CallPlan
