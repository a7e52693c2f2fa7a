import CallPlan.Cli.Program
import CallPlan.Proofs.Json.Exporting
import CallPlan.Proofs.Run.Starting
import CallPlan.Proofs.Service.Binding

/-!
# Methods that a binder refuses

A binder that is asked in turn for what commands call may refuse one method, behind any number of
others that it binds (`Binder.Refuses`). No registry is made then, and nothing is run. What the
binder raises is passed on if it is a failure, and reported as a failed binding if not
(`Registry.reported`). So it ends as an error of the configuration unless the binder itself raises a
failure of another kind (`Registry.isConfiguration_reported_iff`).

The program prints errors of the configuration and no others, and this holds for refused methods
too (`Registry.build_refused`).
-/

namespace CallPlan

open Sequencing

variable {σ τ : Type} {binder : Binder σ} {commands : List Command} {s s' : σ}

/-- The error is a failure about the plan or the settings. -/
def Halt.IsConfiguration (h : Halt) : Prop :=
  ∃ f, h = .failure f ∧ f.kind = .config

/-- Asked in turn for what commands call, the binder has handlers for the methods before this one,
and raises the error for it. -/
def Binder.Refuses (binder : Binder σ) (commands : List Command) (s : σ) (key : String × String)
    (h : Halt) (s' : σ) : Prop :=
  ∃ bound behind s₁, methods commands = bound.map Prod.fst ++ key :: behind
    ∧ binder.InTurn s bound s₁ ∧ binder.bind key.1 key.2 s₁ = .error h s'

namespace Registry

/-! ## Registries -/

theorem build_eq_error_iff_refuses {source : String} {h : Halt} :
    build binder source commands s = .error h s' ↔
      ∃ key h', binder.Refuses commands s key h' s' ∧ h = reported key.1 key.2 h' := by
  rw [build_eq_error_iff]
  constructor
  · rintro ⟨bound, key, behind, s₁, h', hkeys, hturn, hfails, rfl⟩
    exact ⟨key, h', ⟨bound, behind, s₁, hkeys, hturn, hfails⟩, rfl⟩
  · rintro ⟨key, h', ⟨bound, behind, s₁, hkeys, hturn, hfails⟩, rfl⟩
    exact ⟨bound, key, behind, s₁, h', hkeys, hturn, hfails, rfl⟩

/-- A binder that never has a handler for what some command calls refuses this or a method before
it. -/
theorem exists_refuses {c : Command} (hc : c ∈ commands)
    (hnever : ∀ s, ∃ h s', binder.bind c.objectType c.method s = .error h s') (s : σ) :
    ∃ key h s', binder.Refuses commands s key h s' := by
  cases hbuild : build binder "" commands s with
  | ok r s' =>
      obtain ⟨handler, ⟨s₁, s₂, hgives⟩, -⟩ := exists_invoke_of_build hbuild hc
      obtain ⟨h, s₃, hfails⟩ := hnever s₁
      rw [hgives] at hfails
      cases hfails
  | error h s' =>
      obtain ⟨key, h', hrefuses, -⟩ := build_eq_error_iff_refuses.mp hbuild
      exact ⟨key, h', s', hrefuses⟩

/-- Anything but a failure of another kind is reported as an error of the configuration. -/
theorem isConfiguration_reported_iff {objectType method : String} {h : Halt} :
    (reported objectType method h).IsConfiguration ↔ ∀ f, h = .failure f → f.kind = .config := by
  cases h with
  | failure f =>
      constructor
      · rintro ⟨_, ⟨⟩, hf⟩ _ ⟨⟩
        exact hf
      · exact fun hf => ⟨f, rfl, hf f rfl⟩
  | fault f => exact ⟨fun _ => nofun, fun _ => ⟨_, rfl, rfl⟩⟩

end Registry

namespace Run

/-! ## Runs of a file -/

/-- The plan is read from the file, and for its settings the gateway gives the binder. -/
def Connects (project : Project) (environ : Environment) (gateway : Gateway σ) (p : Path)
    (w : World σ τ) (plan : Plan) (binder : Binder σ) (s : σ) : Prop :=
  ∃ settings, Plan.load w.files p = .ok plan ∧ settingsFor project environ plan = .ok settings
    ∧ gateway.connect settings w.services = .ok binder s

/-- A run of a file ends with what is reported about a refused method, before anything is called. -/
theorem runFile_of_refuses {project : Project} {environ : Environment} {gateway : Gateway σ}
    {p : Path} {w : World σ τ} {plan : Plan} {key : String × String} {h : Halt}
    (hconnects : Connects project environ gateway p w plan binder s)
    (hrefuses : binder.Refuses plan.commands s key h s') (sink : Sink τ) (base : Option Path)
    (elapsed : Nat → Nat) (runId : String) :
    runFile project environ gateway sink base elapsed runId p w
      = .error (Registry.reported key.1 key.2 h) { w with services := s' } := by
  obtain ⟨settings, hload, hsettings, hconnect⟩ := hconnects
  have hbuild : Registry.build binder gateway.name plan.commands s
      = .error (Registry.reported key.1 key.2 h) s' :=
    Registry.build_eq_error_iff_refuses.mpr ⟨key, h, hrefuses, rfl⟩
  refine runFile_eq_error_iff.mpr (.inl ?_)
  refine run_bind_eq_error_iff.mpr (.inr ⟨plan, w, lift_eq_ok_iff.mpr ⟨hload, rfl⟩, ?_⟩)
  refine run_bind_eq_error_iff.mpr (.inr ⟨settings, w, lift_eq_ok_iff.mpr ⟨hsettings, rfl⟩, ?_⟩)
  refine run_bind_eq_error_iff.mpr
    (.inr ⟨binder, _, withServices_eq_ok_iff.mpr ⟨s, hconnect, rfl⟩, ?_⟩)
  exact run_bind_eq_error_iff.mpr (.inl (withServices_eq_error_iff.mpr ⟨s', hbuild, rfl⟩))

end Run

namespace Cli

/-! ## What the program prints -/

theorem textKeyed_describe {f : Failure} (h : f.cause.mismatches? = none) :
    f.describe.textKeyed = true := by
  unfold Failure.describe
  cases f.place? <;> simp [h, Value.record, Value.textKeyed, Value.entriesTextKeyed, Value.kind]

theorem isWritable_describe {f : Failure} (h : f.cause.mismatches? = none) :
    f.describe.isWritable = true := by
  refine Value.isWritable_record ?_
  cases f.place? <;> simp [h]

theorem itemsTextKeyed_issues (issues : List Issue) :
    Value.itemsTextKeyed (issues.map issueValue) = true := by
  induction issues with
  | nil => rfl
  | cons i issues ih =>
      rw [List.map_cons, Value.itemsTextKeyed, ih]
      rfl

theorem itemsWritable_issues (issues : List Issue) :
    Value.itemsWritable (issues.map issueValue) = true := by
  induction issues with
  | nil => rfl
  | cons i issues ih =>
      rw [List.map_cons, Value.itemsWritable, ih]
      rfl

/-- Only failed expectations have values of their own, and these are no errors of the
configuration. -/
theorem mismatches?_eq_none {f : Failure} (h : f.kind = .config) : f.cause.mismatches? = none := by
  cases hc : f.cause with
  | mismatch id ms =>
      rw [Failure.kind, hc] at h
      cases h
  | _ => rfl

/-- An error of the configuration can be printed. -/
theorem exists_ofValue_failureFields {f : Failure} (h : f.kind = .config) :
    ∃ j, Json.ofValue (.record (failureFields f)) = .ok j := by
  have hkeys := textKeyed_describe (mismatches?_eq_none h)
  have hwritable := isWritable_describe (mismatches?_eq_none h)
  refine Json.exists_ofValue (Value.textKeyed_record ?_) (Value.isWritable_record ?_)
  · unfold failureFields
    cases f.cause.report? with
    | none => simp [hkeys, Value.textKeyed]
    | some r => simp [reportFields, hkeys, itemsTextKeyed_issues, Value.textKeyed]
  · unfold failureFields
    cases f.cause.report? with
    | none => simp [hwritable, Value.isWritable]
    | some r => simp [reportFields, hwritable, itemsWritable_issues, Value.isWritable]

/-- The state in which a run begins: the log is configured. -/
def logging (o : RunOptions) (w : State σ) : State σ :=
  after (configureLog o.logDirectory w)

theorem configureLog_eq_ok (o : RunOptions) (w : State σ) :
    configureLog o.logDirectory w = .ok () (logging o w) := by
  unfold logging configureLog
  cases Settings.usableText? o.logDirectory <;> rfl

/-- An error that ends the run of the file is printed if it is one of the configuration, and ends
the program if not. -/
theorem runCommand_of_error {p : Surroundings σ} {file : String} {o : RunOptions} {w w' : State σ}
    {h : Halt}
    (hrun : Run.runFile p.project (p.environ.with (overrides o)) p.gateway
      (Log.sink p.project p.now p.runId) none p.elapsed p.runId (.ofText file) (logging o w)
        = .error h w') :
    (∀ f, h = .failure f → f.kind = .config →
      ∃ j, Json.ofValue (.record (failureFields f)) = .ok j
        ∧ runCommand p file o w = .ok ⟨1, j.write .page ++ "\n"⟩ w')
    ∧ (¬ h.IsConfiguration → runCommand p file o w = .error h w') := by
  have hbody := run_bind_eq_error_iff (f := summarised).mpr (.inl hrun)
  constructor
  · rintro f rfl hf
    obtain ⟨j, hj⟩ := exists_ofValue_failureFields hf
    refine ⟨j, hj, run_bind_eq_ok_iff.mpr ⟨(), _, configureLog_eq_ok o w, ?_⟩⟩
    simp only [reporting, hbody, hf, if_true, document, hj]
  · intro hnot
    refine run_bind_eq_error_iff.mpr (.inr ⟨(), _, configureLog_eq_ok o w, ?_⟩)
    cases h with
    | failure f =>
        have hf : f.kind ≠ .config := fun hf => hnot ⟨f, rfl, hf⟩
        simp only [reporting, hbody, hf, if_false]
    | fault f => simp only [reporting, hbody]

/-- Configuring the log neither touches files nor services. -/
theorem connects_logging {project : Project} {environ : Environment} {gateway : Gateway σ}
    {p : Path} {w : State σ} {plan : Plan}
    (h : Run.Connects project environ gateway p w plan binder s) (o : RunOptions) :
    Run.Connects project environ gateway p (logging o w) plan binder s := by
  unfold logging configureLog
  cases Settings.usableText? o.logDirectory <;> exact h

end Cli

namespace Registry

/-- **A method that is refused keeps everything from being run, and is an error of the configuration
unless the binder says otherwise.** If the binder never has a handler for what some command calls,
it refuses a method. If it refuses one, behind any number of others that it binds, then no registry
is made: what is raised is the binder's own failure, unchanged, or else a failed binding. This is an
error of the configuration exactly if the binder does not raise a failure of another kind. It ends
every run of a file whose plan has these commands. The program prints it and has the exit code one
if it is an error of the configuration, and ends with it if not. -/
theorem build_refused (binder : Binder σ) (commands : List Command) (s : σ) :
    (∀ c ∈ commands, (∀ s, ∃ h s', binder.bind c.objectType c.method s = .error h s') →
      ∃ key h s', binder.Refuses commands s key h s')
    ∧ ∀ key h s', binder.Refuses commands s key h s' →
      (∀ source, build binder source commands s = .error (reported key.1 key.2 h) s')
      ∧ ((reported key.1 key.2 h).IsConfiguration ↔ ∀ f, h = .failure f → f.kind = .config)
      ∧ (∀ (τ : Type) (project : Project) (environ : Environment) (gateway : Gateway σ)
          (sink : Sink τ) (base : Option Path) (elapsed : Nat → Nat) (runId : String) (p : Path)
          (w : World σ τ) (plan : Plan), plan.commands = commands →
        Run.Connects project environ gateway p w plan binder s →
        Run.runFile project environ gateway sink base elapsed runId p w
          = .error (reported key.1 key.2 h) { w with services := s' })
      ∧ ∀ (around : Cli.Surroundings σ) (file : String) (o : Cli.RunOptions) (w : Cli.State σ)
          (plan : Plan), plan.commands = commands →
        Run.Connects around.project (around.environ.with (Cli.overrides o)) around.gateway
          (.ofText file) w plan binder s →
        let w' := { Cli.logging o w with services := s' }
        (∀ f, reported key.1 key.2 h = .failure f → f.kind = .config →
          ∃ j, Json.ofValue (.record (Cli.failureFields f)) = .ok j
            ∧ Cli.runCommand around file o w = .ok ⟨1, j.write .page ++ "\n"⟩ w')
        ∧ (¬ (reported key.1 key.2 h).IsConfiguration →
          Cli.runCommand around file o w = .error (reported key.1 key.2 h) w') := by
  refine ⟨fun c hc hnever => exists_refuses hc hnever s, fun key h s' hrefuses => ?_⟩
  refine ⟨fun source => build_eq_error_iff_refuses.mpr ⟨key, h, hrefuses, rfl⟩,
    isConfiguration_reported_iff, ?_, ?_⟩
  · rintro τ project environ gateway sink base elapsed runId p w plan rfl hconnects
    exact Run.runFile_of_refuses hconnects hrefuses sink base elapsed runId
  · rintro around file o w plan rfl hconnects
    exact Cli.runCommand_of_error
      (Run.runFile_of_refuses (Cli.connects_logging hconnects o) hrefuses _ _ _ _)

/-! ## Refusals -/

/-- A binder that raises the error for every method. -/
def refusing (h : Halt) : Binder Nat :=
  ⟨fun _ _ => throw h⟩

/-- Surroundings with a gateway to this binder. -/
def refusingSurroundings (h : Halt) : Cli.Surroundings Nat where
  environ := []
  project := .bare
  gateway := ⟨"refusing", fun _ => pure (refusing h)⟩
  now := ⟨⟨2024, 5, 1⟩, ⟨7, 32, 0, 0, none⟩⟩
  runId := "run"
  elapsed _ := 0

/-- An error that is no failure is printed as a failed binding. -/
theorem build_refused_keyError :
    ∃ j, Json.ofValue (.record (Cli.failureFields (.of (.bindFailed "S3.get" "'get'")))) = .ok j
      ∧ Cli.runCommand (refusingSurroundings (.fault (.raised .key "get"))) "plan.json"
          ⟨none, none, none, none, none⟩ (Run.World.start 0 .unconfigured Run.repeatedFiles)
        = .ok ⟨1, j.write .page ++ "\n"⟩ (Run.World.start 0 .unconfigured Run.repeatedFiles) := by
  have hrefuses : (refusing (.fault (.raised .key "get"))).Refuses Run.repeatedPlan.commands 0
      ("S3", "get") (.fault (.raised .key "get")) 0 :=
    ⟨[], [], 0, by decide, .nil, rfl⟩
  obtain ⟨-, -, -, hprogram⟩ := (build_refused _ _ _).2 _ _ _ hrefuses
  obtain ⟨hprinted, -⟩ := hprogram (refusingSurroundings (.fault (.raised .key "get")))
    "plan.json" ⟨none, none, none, none, none⟩
    (Run.World.start 0 .unconfigured Run.repeatedFiles) Run.repeatedPlan rfl
    ⟨_, Run.load_repeatedFiles, rfl, rfl⟩
  exact hprinted _ rfl rfl

/-- A failure of another kind is passed on as it is. -/
theorem build_resource_failure :
    build (refusing (.cause (.other .resource "r.c" (some "why")))) "binder"
        [callOf "S3" "cmd" "2"] 0
      = .error (.cause (.other .resource "r.c" (some "why"))) 0
    ∧ ¬ (Halt.cause (.other .resource "r.c" (some "why"))).IsConfiguration := by
  refine ⟨rfl, ?_⟩
  rintro ⟨_, ⟨⟩, hkind⟩
  cases hkind

end Registry

end CallPlan
