import CallPlan.Run.Log
import CallPlan.Proofs.Json.Exporting
import CallPlan.Proofs.Sequencing

/-!
# Appending to the log

What one append does, step by step: all that it does when it succeeds (`appendAt_eq_ok_iff`), and
where it can fail (`appendAt_eq_error`). An append never touches what the log has been configured
to use; of the state of the log it changes the current file only.
-/

namespace CallPlan.Log

open Sequencing

variable {project : Project} {log : Log} {fs : FileSystem} {s' : Log × FileSystem} {f : Fault}

/-! ## Steps -/

theorem lookUp_eq_ok_iff {α : Type} {x : Except Fault α} {s : Log × FileSystem} {a : α} :
    lookUp x s = .ok a s' ↔ x = .ok a ∧ s = s' := by
  cases x <;> simp [lookUp]

theorem lookUp_eq_error_iff {α : Type} {x : Except Fault α} {s : Log × FileSystem} :
    (lookUp x s : EStateM.Result _ _ α) = .error f s' ↔ x = .error f ∧ s = s' := by
  cases x <;> simp [lookUp]

theorem makeDirectory_eq_ok_iff {p : Path} :
    makeDirectory p (log, fs) = .ok () s' ↔
      ∃ made, fs.makeDirectories p = .ok made ∧ (log, made) = s' := by
  simp only [makeDirectory]
  cases fs.makeDirectories p <;> simp

theorem makeDirectory_eq_error_iff {p : Path} :
    makeDirectory p (log, fs) = .error f s' ↔
      ∃ e made, fs.makeDirectories p = .error (e, made) ∧ .file e = f ∧ (log, made) = s' := by
  simp only [makeDirectory]
  cases fs.makeDirectories p with
  | ok made => simp
  | error r =>
      obtain ⟨e, made⟩ := r
      simp only [EStateM.Result.error.injEq, Except.error.injEq, Prod.mk.injEq]
      constructor
      · rintro ⟨hf, hs⟩
        exact ⟨e, made, ⟨rfl, rfl⟩, hf, hs⟩
      · rintro ⟨_, _, ⟨rfl, rfl⟩, hf, hs⟩
        exact ⟨hf, hs⟩

theorem choose_eq_ok_iff {limit : Int} {directory p : Path} :
    choose limit directory (log, fs) = .ok p s' ↔
      target fs limit directory log.current = .ok p ∧
        ({ log with current := some p }, fs) = s' := by
  simp only [choose]
  cases target fs limit directory log.current with
  | ok q =>
      simp only [EStateM.Result.ok.injEq, Except.ok.injEq]
      refine and_congr_right fun hq => ?_
      rw [hq]
  | error e => simp

theorem choose_eq_error_iff {limit : Int} {directory : Path} :
    choose limit directory (log, fs) = .error f s' ↔
      ∃ e, target fs limit directory log.current = .error e ∧ .file e = f ∧ (log, fs) = s' := by
  simp only [choose]
  cases target fs limit directory log.current <;> simp

theorem write_eq_ok_iff {p : Path} {text : String} :
    write p text (log, fs) = .ok () s' ↔
      ∃ written, fs.append p (Text.Utf8.encode (text ++ "\n")) = .ok written ∧
        (log, written) = s' := by
  simp only [write]
  cases fs.append p (Text.Utf8.encode (text ++ "\n")) <;> simp

theorem write_eq_error_iff {p : Path} {text : String} :
    write p text (log, fs) = .error f s' ↔
      ∃ e, fs.append p (Text.Utf8.encode (text ++ "\n")) = .error e ∧ .file e = f ∧
        (log, fs) = s' := by
  simp only [write]
  cases fs.append p (Text.Utf8.encode (text ++ "\n")) <;> simp

/-! ## Whole appends -/

variable {stamp now : DateTime} {event : Value}

/-- All that an append does when it succeeds. -/
theorem appendAt_eq_ok_iff {p : Path} :
    appendAt project stamp now event (log, fs) = .ok p s' ↔
      ∃ text root made limit written, line stamp event = .ok text ∧ log.root project = .ok root
        ∧ fs.makeDirectories (root.child (dayName now.date)) = .ok made
        ∧ log.sizeLimit project = .ok limit
        ∧ target made limit (root.child (dayName now.date)) log.current = .ok p
        ∧ made.append p (Text.Utf8.encode (text ++ "\n")) = .ok written
        ∧ ({ log with current := some p }, written) = s' := by
  unfold appendAt
  constructor
  · intro h
    obtain ⟨text, s, hx, h⟩ := run_bind_eq_ok_iff.mp h
    obtain ⟨hline, rfl⟩ := lookUp_eq_ok_iff.mp hx
    obtain ⟨root, s, hx, h⟩ := run_bind_eq_ok_iff.mp h
    obtain ⟨hroot, rfl⟩ := lookUp_eq_ok_iff.mp hx
    obtain ⟨_, s, hx, h⟩ := run_bind_eq_ok_iff.mp h
    obtain ⟨made, hmade, rfl⟩ := makeDirectory_eq_ok_iff.mp hx
    obtain ⟨limit, s, hx, h⟩ := run_bind_eq_ok_iff.mp h
    obtain ⟨hlimit, rfl⟩ := lookUp_eq_ok_iff.mp hx
    obtain ⟨q, s, hx, h⟩ := run_bind_eq_ok_iff.mp h
    obtain ⟨htarget, rfl⟩ := choose_eq_ok_iff.mp hx
    obtain ⟨_, s, hx, h⟩ := run_bind_eq_ok_iff.mp h
    obtain ⟨written, hwritten, rfl⟩ := write_eq_ok_iff.mp hx
    cases h
    exact ⟨text, root, made, limit, written, hline, hroot, hmade, hlimit, htarget, hwritten, rfl⟩
  · rintro ⟨text, root, made, limit, written, hline, hroot, hmade, hlimit, htarget, hwritten, rfl⟩
    refine run_bind_eq_ok_iff.mpr ⟨text, _, lookUp_eq_ok_iff.mpr ⟨hline, rfl⟩, ?_⟩
    refine run_bind_eq_ok_iff.mpr ⟨root, _, lookUp_eq_ok_iff.mpr ⟨hroot, rfl⟩, ?_⟩
    refine run_bind_eq_ok_iff.mpr ⟨(), _, makeDirectory_eq_ok_iff.mpr ⟨made, hmade, rfl⟩, ?_⟩
    refine run_bind_eq_ok_iff.mpr ⟨limit, _, lookUp_eq_ok_iff.mpr ⟨hlimit, rfl⟩, ?_⟩
    refine run_bind_eq_ok_iff.mpr ⟨p, _, choose_eq_ok_iff.mpr ⟨htarget, rfl⟩, ?_⟩
    exact run_bind_eq_ok_iff.mpr ⟨(), _, write_eq_ok_iff.mpr ⟨written, hwritten, rfl⟩, rfl⟩

/-- Where an append can fail: the event has no line, the settings name no directory, a file
operation fails, or the settings name no limit, which it asks for when the directory of the day
is made. -/
inductive AppendFails (project : Project) (stamp now : DateTime) (event : Value) (log : Log)
    (fs : FileSystem) : Fault → Prop
  | line {f : Fault} (h : line stamp event = .error f) :
      AppendFails project stamp now event log fs f
  | root {f : Fault} (h : log.root project = .error f) :
      AppendFails project stamp now event log fs f
  | file (e : FileError) : AppendFails project stamp now event log fs (.file e)
  | limit {f : Fault} {root : Path} {made : FileSystem} (hroot : log.root project = .ok root)
      (hmade : fs.makeDirectories (root.child (dayName now.date)) = .ok made)
      (h : log.sizeLimit project = .error f) : AppendFails project stamp now event log fs f

theorem appendAt_eq_error (h : appendAt project stamp now event (log, fs) = .error f s') :
    AppendFails project stamp now event log fs f ∧
      ∃ current left, s' = ({ log with current }, left) := by
  unfold appendAt at h
  rcases run_bind_eq_error_iff.mp h with hx | ⟨text, s, hx, h⟩
  · obtain ⟨hline, rfl⟩ := lookUp_eq_error_iff.mp hx
    exact ⟨.line hline, _, _, rfl⟩
  obtain ⟨-, rfl⟩ := lookUp_eq_ok_iff.mp hx
  rcases run_bind_eq_error_iff.mp h with hx | ⟨root, s, hx, h⟩
  · obtain ⟨hroot, rfl⟩ := lookUp_eq_error_iff.mp hx
    exact ⟨.root hroot, _, _, rfl⟩
  obtain ⟨hroot, rfl⟩ := lookUp_eq_ok_iff.mp hx
  rcases run_bind_eq_error_iff.mp h with hx | ⟨_, s, hx, h⟩
  · obtain ⟨e, made, -, rfl, rfl⟩ := makeDirectory_eq_error_iff.mp hx
    exact ⟨.file e, _, _, rfl⟩
  obtain ⟨made, hmade, rfl⟩ := makeDirectory_eq_ok_iff.mp hx
  rcases run_bind_eq_error_iff.mp h with hx | ⟨limit, s, hx, h⟩
  · obtain ⟨hlimit, rfl⟩ := lookUp_eq_error_iff.mp hx
    exact ⟨.limit hroot hmade hlimit, _, _, rfl⟩
  obtain ⟨-, rfl⟩ := lookUp_eq_ok_iff.mp hx
  rcases run_bind_eq_error_iff.mp h with hx | ⟨p, s, hx, h⟩
  · obtain ⟨e, -, rfl, rfl⟩ := choose_eq_error_iff.mp hx
    exact ⟨.file e, _, _, rfl⟩
  obtain ⟨-, rfl⟩ := choose_eq_ok_iff.mp hx
  rcases run_bind_eq_error_iff.mp h with hx | ⟨_, s, -, h⟩
  · obtain ⟨e, -, rfl, rfl⟩ := write_eq_error_iff.mp hx
    exact ⟨.file e, _, _, rfl⟩
  · cases h

/-- An append changes the current file of the log and nothing else of it. -/
theorem exists_after_appendAt (project : Project) (stamp now : DateTime) (event : Value)
    (s : Log × FileSystem) :
    ∃ current left, after (appendAt project stamp now event s) = ({ s.1 with current }, left) := by
  obtain ⟨log, fs⟩ := s
  cases h : appendAt project stamp now event (log, fs) with
  | ok p s' =>
      obtain ⟨-, -, -, -, written, -, -, -, -, -, -, rfl⟩ := appendAt_eq_ok_iff.mp h
      exact ⟨some p, written, rfl⟩
  | error f s' =>
      obtain ⟨-, current, left, rfl⟩ := appendAt_eq_error h
      exact ⟨current, left, rfl⟩

/-- An append asks for the limit once the directory of the day is made, and fails as that
does. -/
theorem appendAt_of_sizeLimit {text : String} {root : Path} {made : FileSystem}
    (hline : line stamp event = .ok text) (hroot : log.root project = .ok root)
    (hmade : fs.makeDirectories (root.child (dayName now.date)) = .ok made)
    (hlimit : log.sizeLimit project = .error f) :
    appendAt project stamp now event (log, fs) = .error f (log, made) := by
  unfold appendAt
  refine run_bind_eq_error_iff.mpr (.inr ⟨text, _, lookUp_eq_ok_iff.mpr ⟨hline, rfl⟩, ?_⟩)
  refine run_bind_eq_error_iff.mpr (.inr ⟨root, _, lookUp_eq_ok_iff.mpr ⟨hroot, rfl⟩, ?_⟩)
  refine run_bind_eq_error_iff.mpr
    (.inr ⟨(), _, makeDirectory_eq_ok_iff.mpr ⟨made, hmade, rfl⟩, ?_⟩)
  exact run_bind_eq_error_iff.mpr (.inl (lookUp_eq_error_iff.mpr ⟨hlimit, rfl⟩))

/-! ## Lines -/

/-- An event whose keys are texts has a line, unless an integer in it is too long: what is written
for it, with a time stamp if it has none, where nothing breaks the line. -/
theorem exists_line {es : List (Value × Value)} (h : Value.entriesTextKeyed es = true)
    (hw : Value.entriesWritable es = true) (stamp : DateTime) :
    ∃ j, Json.ofValue (.map (stamped stamp es)) = .ok j ∧
      line stamp (.map es) = .ok (j.write .line) := by
  have hstamped : Value.entriesTextKeyed (stamped stamp es) = true
      ∧ Value.entriesWritable (stamped stamp es) = true := by
    unfold stamped
    split
    · exact ⟨h, hw⟩
    · exact ⟨Value.entriesTextKeyed_append h rfl, Value.entriesWritable_append hw rfl⟩
  obtain ⟨j, hj⟩ := Json.exists_ofValue (v := .map (stamped stamp es)) hstamped.1 hstamped.2
  refine ⟨j, hj, ?_⟩
  refine bind_eq_ok_iff.mpr ⟨es, rfl, ?_⟩
  rw [hj]
  rfl

end CallPlan.Log
