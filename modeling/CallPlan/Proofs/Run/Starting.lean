import CallPlan.Proofs.Fields
import CallPlan.Proofs.Run.Recording
import CallPlan.Proofs.Run.Return
import CallPlan.Proofs.Run.Refusals
import CallPlan.Proofs.Service.Building
import CallPlan.Run.Start

/-!
# What is found before anything happens

A run of a plan file reads the plan, resolves the settings, connects and binds, and only then
performs commands (`prepare_eq_ok_iff`, `runFile_eq_error_iff`). Failures of commands are kept for
the report, those that are raised by handlers among them, so a failure that ends a run comes from
the preparation, unless the sink raises it (`raises_of_submit`).

To say that nothing has happened by then, everything that a gateway hands out is made to record
its calls (`Gateway.recorded`) and the sink to record the events that it is told, also where it
refuses them (`Sink.noted`). This changes nothing of a run (`simulates_runFile`), and a run that a
failure ends leaves both records empty (`runFile_failure`).
-/

namespace CallPlan

open Sequencing

variable {σ τ : Type}

/-! ## Gateways with records -/

/-- The handler for a method with a record of its calls, as an invoker keeps it. -/
def recordedHandler (objectType method : String) (handler : Handler σ) :
    Handler (σ × List Call) :=
  let invoker : Invoker σ := ⟨fun _ _ => handler⟩
  invoker.recorded.invoke objectType method

def Capability.recorded (c : Capability σ) : Capability (σ × List Call) :=
  ⟨c.objectType, c.method, recordedHandler c.objectType c.method c.handler, c.source⟩

def Registry.recorded (r : Registry σ) : Registry (σ × List Call) :=
  ⟨r.capabilities.map fun (key, c) => (key, c.recorded)⟩

/-- The binder whose handlers record their calls. -/
def Binder.recorded (binder : Binder σ) : Binder (σ × List Call) where
  bind objectType method :=
    alongside (recordedHandler objectType method) (binder.bind objectType method)

/-- The gateway whose connections give such binders. -/
def Gateway.recorded (gateway : Gateway σ) : Gateway (σ × List Call) where
  name := gateway.name
  connect settings := alongside Binder.recorded (gateway.connect settings)

/-- The sink with a record of the events that it is told, whatever it does with them. -/
def Sink.noted (sink : Sink τ) : Sink (τ × List Event) where
  emit e := fun ((t, told), files) =>
    match sink.emit e (t, files) with
    | .ok () (t, files) => .ok () ((t, told ++ [e]), files)
    | .error h (t, files) => .error h ((t, told ++ [e]), files)

/-- The world with records of calls and of events. -/
def World.noted (w : World σ τ) (calls : List Call) (told : List Event) :
    World (σ × List Call) (τ × List Event) :=
  ⟨(w.services, calls), (w.sink, told), w.files, w.store⟩

/-! ## Registries with records -/

namespace Registry

/-- The first state is the second beside a record. -/
def Keeping (calls : List Call) (w : σ × List Call) (s : σ) : Prop :=
  w = (s, calls)

theorem find?_recorded (r : Registry σ) (objectType method : String) :
    r.recorded.find? objectType method = (r.find? objectType method).map Capability.recorded :=
  Fields.get?_map Capability.recorded _ _

theorem simulates_alongside {α β : Type} (calls : List Call) (f : α → β) (x : EStateM Halt σ α) :
    Run.Simulates (Keeping calls) (fun b a => b = f a) (alongside f x) x := by
  rintro _ s rfl
  simp only [alongside]
  cases x s with
  | ok a s => exact .ok rfl rfl
  | error h s => exact .error rfl

theorem simulates_bind (calls : List Call) (binder : Binder σ) (c : Command) :
    Run.Simulates (Keeping calls) (fun h' h => h' = recordedHandler c.objectType c.method h)
      (bind binder.recorded c) (bind binder c) := by
  rintro _ s rfl
  simp only [bind, Binder.recorded, alongside]
  cases binder.bind c.objectType c.method s with
  | ok h s => exact .ok rfl rfl
  | error h s => exact .error rfl

/-- A registry whose handlers record calls is made in the same steps, which call none. -/
theorem simulates_extend (calls : List Call) (binder : Binder σ) (source : String)
    (r : Registry σ) (cs : List Command) :
    Run.Simulates (Keeping calls) (fun r' r => r' = r.recorded)
      (extend binder.recorded source r.recorded cs) (extend binder source r cs) := by
  induction cs generalizing r with
  | nil => exact .pure rfl
  | cons c cs ih =>
      rw [extend_cons, extend_cons, find?_recorded, Option.isSome_map]
      split
      · exact ih r
      · refine .bind (simulates_bind calls binder c) fun _ handler hh => ?_
        subst hh
        have happended : r.recorded.appended c.objectType c.method
            (recordedHandler c.objectType c.method handler) source =
              (r.appended c.objectType c.method handler source).recorded := by
          simp [appended, recorded, Capability.recorded]
        rw [happended]
        exact ih _

end Registry

namespace Run

variable {project : Project} {environ : Environment} {gateway : Gateway σ} {sink : Sink τ}
  {base : Option Path} {elapsed : Nat → Nat} {runId : String} {p : Path}

/-! ## Preparing -/

theorem withServices_eq_ok_iff {α : Type} {x : EStateM Halt σ α} {a : α} {w w' : World σ τ} :
    withServices x w = .ok a w' ↔
      ∃ s, x w.services = .ok a s ∧ w' = { w with services := s } := by
  unfold withServices
  split <;> rename_i hx <;> simp [hx, eq_comm, and_assoc]

theorem withServices_eq_error_iff {α : Type} {x : EStateM Halt σ α} {h : Halt}
    {w w' : World σ τ} :
    withServices x w = .error h w' ↔
      ∃ s, x w.services = .error h s ∧ w' = { w with services := s } := by
  unfold withServices
  split <;> rename_i hx <;> simp [hx, eq_comm, and_assoc]

/-- Preparing reads the plan, resolves the settings, connects and binds; only the services can
change. -/
theorem prepare_eq_ok_iff {plan : Plan} {registry : Registry σ} {w w' : World σ τ} :
    prepare project environ gateway p w = .ok (plan, registry) w' ↔
      ∃ settings binder s₁ s₂, Plan.load w.files p = .ok plan
        ∧ settingsFor project environ plan = .ok settings
        ∧ gateway.connect settings w.services = .ok binder s₁
        ∧ Registry.build binder gateway.name plan.commands s₁ = .ok registry s₂
        ∧ w' = { w with services := s₂ } := by
  simp only [prepare, run_bind_eq_ok_iff, load, lift_eq_ok_iff, withServices_eq_ok_iff, run_pure,
    EStateM.Result.ok.injEq, Prod.mk.injEq]
  constructor
  · rintro ⟨_, _, ⟨hload, rfl⟩, settings, _, ⟨hsettings, rfl⟩, binder, _, ⟨s₁, hconnect, rfl⟩, _, _,
      ⟨s₂, hbuild, rfl⟩, ⟨rfl, rfl⟩, rfl⟩
    exact ⟨settings, binder, s₁, s₂, hload, hsettings, hconnect, hbuild, rfl⟩
  · rintro ⟨settings, binder, s₁, s₂, hload, hsettings, hconnect, hbuild, rfl⟩
    exact ⟨_, _, ⟨hload, rfl⟩, _, _, ⟨hsettings, rfl⟩, _, _, ⟨s₁, hconnect, rfl⟩, _, _,
      ⟨s₂, hbuild, rfl⟩, ⟨rfl, rfl⟩, rfl⟩

/-- However preparing ends, it leaves everything but the services as it is. -/
theorem after_prepare (project : Project) (environ : Environment) (gateway : Gateway σ) (p : Path)
    (w : World σ τ) :
    ∃ s, after (prepare project environ gateway p w) = { w with services := s } := by
  cases hp : prepare project environ gateway p w with
  | ok a w' =>
      obtain ⟨plan, registry⟩ := a
      obtain ⟨settings, binder, s₁, s₂, -, -, -, -, rfl⟩ := prepare_eq_ok_iff.mp hp
      exact ⟨s₂, rfl⟩
  | error h w' =>
      simp only [prepare, run_bind_eq_error_iff, load, lift_eq_ok_iff, lift_eq_error_iff,
        withServices_eq_ok_iff, withServices_eq_error_iff] at hp
      rcases hp with ⟨-, rfl⟩ | ⟨_, _, ⟨-, rfl⟩, ⟨-, rfl⟩ | ⟨_, _, ⟨-, rfl⟩, ⟨s, -, rfl⟩ |
        ⟨_, _, ⟨s₁, -, rfl⟩, ⟨s, -, rfl⟩ | ⟨_, _, -, hpure⟩⟩⟩⟩
      · exact ⟨_, rfl⟩
      · exact ⟨_, rfl⟩
      · exact ⟨s, rfl⟩
      · exact ⟨s, rfl⟩
      · cases hpure

theorem runFile_eq_ok_iff {report : RunReport} {w w' : World σ τ} :
    runFile project environ gateway sink base elapsed runId p w = .ok report w' ↔
      ∃ plan registry w₁, prepare project environ gateway p w = .ok (plan, registry) w₁
        ∧ submit ⟨environ.get?, base, project, elapsed⟩ registry.invoker sink runId plan.commands w₁
          = .ok report w' := by
  simp only [runFile, run_bind_eq_ok_iff, Prod.exists]

theorem runFile_eq_error_iff {h : Halt} {w w' : World σ τ} :
    runFile project environ gateway sink base elapsed runId p w = .error h w' ↔
      prepare project environ gateway p w = .error h w'
      ∨ ∃ plan registry w₁, prepare project environ gateway p w = .ok (plan, registry) w₁
        ∧ submit ⟨environ.get?, base, project, elapsed⟩ registry.invoker sink runId plan.commands w₁
          = .error h w' := by
  simp only [runFile, run_bind_eq_error_iff, Prod.exists]

/-! ## Failures that end a run -/

end Run

/-- The sink raises the failure at some event. -/
def Sink.Raises (sink : Sink τ) (f : Failure) : Prop :=
  ∃ e s s', sink.emit e s = .error (.failure f) s'

/-- A failure is no ordinary error. -/
theorem Sink.Ordinary.not_raises {sink : Sink τ} (h : sink.Ordinary) (f : Failure) :
    ¬ sink.Raises f := by
  rintro ⟨e, s, s', he⟩
  cases h e s _ _ he

namespace Run

section

variable {job : Job} {invoker : Invoker σ} {sink : Sink τ} {f : Failure} {w w' : World σ τ}

theorem raises_of_emit {e : Event} (h : emit sink e w = .error (.failure f) w') :
    sink.Raises f := by
  unfold emit at h
  split at h
  · cases h
  · next he =>
    simp only at h
    split at h <;> cases h
    exact ⟨e, _, _, he⟩

/-- Of the errors that end a run at a command, the failures are those of the sink. -/
theorem raises_of_breaks {n : Nat} {c : Command} {rest : List Command}
    (h : Breaks job invoker sink n c rest w (.failure f) w') : sink.Raises f := by
  -- What the command itself stops with is a fault here: its failures go into the report.
  cases h with
  | uncompleted performed told => exact raises_of_emit told
  | unreported halted told => exact raises_of_emit told
  | unskipped halted told skipped =>
      obtain ⟨e, w₁, he⟩ := exists_emit_of_skip_eq_error skipped
      exact raises_of_emit he

/-- A failure that ends the run of commands is one that the sink raises. -/
theorem raises_of_submit {commands : List Command}
    (h : submit job invoker sink runId commands w = .error (.failure f) w') : sink.Raises f := by
  rcases submit_eq_error_iff.mp h with he | ⟨w₁, -, hall | ⟨os, w₂, -, he⟩⟩
  · exact raises_of_emit he
  · obtain ⟨done, c, rest, w₂, -, hbreaks, -⟩ := performAll_eq_error hall
    exact raises_of_breaks hbreaks
  · exact raises_of_emit he

end

/-! ## Records change nothing -/

/-- The first world is the second with these records. -/
def Noting (calls : List Call) (told : List Event) (w : World (σ × List Call) (τ × List Event))
    (v : World σ τ) : Prop :=
  w = v.noted calls told

/-- The first world is the second with some records. -/
def Noted (w : World (σ × List Call) (τ × List Event)) (v : World σ τ) : Prop :=
  ∃ calls told, w = v.noted calls told

theorem simulates_load (calls : List Call) (told : List Event) (p : Path) :
    Simulates (Noting (σ := σ) (τ := τ) calls told) Eq (load p) (load p) := by
  rintro _ v rfl
  exact Simulates.lift _ _ v rfl

theorem simulates_withServices {α β : Type} {calls : List Call} {Q : α → β → Prop}
    {x : EStateM Halt (σ × List Call) α} {y : EStateM Halt σ β}
    (h : Simulates (Registry.Keeping calls) Q x y) (told : List Event) :
    Simulates (Noting (τ := τ) calls told) Q (withServices x) (withServices y) := by
  rintro _ v rfl
  have hxy := h _ v.services rfl
  simp only [withServices, World.noted]
  generalize x (v.services, calls) = rx at hxy ⊢
  generalize y v.services = ry at hxy ⊢
  cases hxy with
  | ok hq hs =>
      cases hs
      exact .ok hq rfl
  | error hs =>
      cases hs
      exact .error rfl

/-- Preparing with records goes alike and leaves the records as they are. -/
theorem simulates_prepare (project : Project) (environ : Environment) (gateway : Gateway σ)
    (p : Path) (calls : List Call) (told : List Event) :
    Simulates (Noting (τ := τ) calls told) (fun a b => a = (b.1, b.2.recorded))
      (prepare project environ gateway.recorded p) (prepare project environ gateway p) := by
  -- Line by line; none of the four steps calls a handler or tells an event.
  refine .bind (simulates_load calls told p) fun plan _ hplan => ?_
  subst hplan
  refine .bind (.lift _) fun settings _ hsettings => ?_
  subst hsettings
  have hconnect := Registry.simulates_alongside calls Binder.recorded (gateway.connect settings)
  refine .bind (simulates_withServices hconnect told) fun _ binder hbinder => ?_
  subst hbinder
  have hbuild := Registry.simulates_extend calls binder gateway.name .empty plan.commands
  refine .bind (simulates_withServices hbuild told) fun _ registry hregistry => ?_
  subst hregistry
  exact .pure rfl

theorem simulates_emit_noted (sink : Sink τ) (e : Event) :
    Simulates (Noted (σ := σ)) Eq (emit sink.noted e) (emit sink e) := by
  rintro _ v ⟨calls, told, rfl⟩
  simp only [emit, Sink.noted, World.noted]
  cases sink.emit e (v.sink, v.files) with
  | ok u s => exact .ok rfl ⟨calls, told ++ [e], rfl⟩
  | error h s =>
      by_cases ho : isOrdinary h = true
      · simp only [ho, if_true]
        exact .ok rfl ⟨calls, told ++ [e], rfl⟩
      · simp only [ho]
        exact .error ⟨calls, told ++ [e], rfl⟩

theorem simulation_noted (job : Job) (r : Registry σ) (sink : Sink τ) :
    Simulation job job r.recorded.invoker r.invoker sink.noted sink 0 Noted where
  resolve := by
    rintro _ v params ⟨calls, told, rfl⟩
    rfl
  emit e e' h := by
    obtain rfl := eq_of_counterpart h
    exact simulates_emit_noted sink e
  call c params := by
    rintro _ v ⟨calls, told, rfl⟩
    simp only [call, Registry.invoker, Registry.get, Registry.find?_recorded, World.noted]
    cases r.find? c.objectType c.method with
    | none => exact .error ⟨calls, told, rfl⟩
    | some capability =>
        simp only [Option.map_some, Capability.recorded, recordedHandler, Invoker.recorded]
        cases capability.handler params v.services with
        | ok result s => exact .ok rfl ⟨_, told, rfl⟩
        | error h s => exact .error ⟨_, told, rfl⟩
  publish id v := by
    rintro _ w ⟨calls, told, rfl⟩
    simp only [publish, World.noted]
    cases w.store.publish id v with
    | ok store => exact .ok rfl ⟨calls, told, rfl⟩
    | error cause => exact .error ⟨calls, told, rfl⟩

/-- A run with records goes like the run without them. -/
theorem simulates_runFile (project : Project) (environ : Environment) (gateway : Gateway σ)
    (sink : Sink τ) (base : Option Path) (elapsed : Nat → Nat) (runId : String) (p : Path) :
    Simulates Noted Eq
      (runFile project environ gateway.recorded sink.noted base elapsed runId p)
      (runFile project environ gateway sink base elapsed runId p) := by
  refine .bind (Q := fun a b => a = (b.1, b.2.recorded)) ?_ fun _ prepared hprepared => ?_
  · rintro _ v ⟨calls, told, rfl⟩
    exact (simulates_prepare project environ gateway p calls told _ v rfl).mono
      fun _ _ hw => ⟨calls, told, hw⟩
  · subst hprepared
    have hstore : ∀ (w : World (σ × List Call) (τ × List Event)) v, Noted w v →
        w.store = v.store := by
      rintro _ v ⟨calls, told, rfl⟩
      rfl
    exact (simulation_noted _ prepared.2 sink).submit (simulates_emit_noted sink) hstore runId _

/-! ## Nothing has happened -/

/-- **What is wrong before a run is found before anything happens.** Recording the calls that
reach handlers and the events that are told changes nothing of a run. If all errors of the sink are
ordinary and a failure ends the run, be it one of the configuration or any other, then the records
are empty, and of the world only the services can have changed. -/
theorem runFile_failure {sink : Sink τ} (hs : sink.Ordinary) (project : Project)
    (environ : Environment) (gateway : Gateway σ) (base : Option Path) (elapsed : Nat → Nat)
    (runId : String) (p : Path) (services : σ) (t : τ) (files : FileSystem) :
    let start := World.start services t files
    let run := runFile project environ gateway sink base elapsed runId p start
    let recorded := runFile project environ gateway.recorded sink.noted base elapsed runId p
      (start.noted [] [])
    Agree Noted Eq recorded run
    ∧ ∀ f w, run = .error (.failure f) w →
      recorded = .error (.failure f) (w.noted [] [])
        ∧ ∃ services', w = World.start services' t files := by
  refine ⟨simulates_runFile project environ gateway sink base elapsed runId p _ _ ⟨[], [], rfl⟩,
    fun f w h => ?_⟩
  have hprepare : prepare project environ gateway p (World.start services t files)
      = .error (.failure f) w := by
    rcases runFile_eq_error_iff.mp h with hp | ⟨plan, registry, w₁, -, hsubmit⟩
    · exact hp
    · exact absurd (raises_of_submit hsubmit) (hs.not_raises f)
  constructor
  · have hagree := simulates_prepare project environ gateway p [] [] _
      (World.start services t files) rfl
    obtain ⟨w', hp, rfl⟩ := hagree.exists_eq_error hprepare
    exact runFile_eq_error_iff.mpr (.inl hp)
  · obtain ⟨services', hw⟩ := after_prepare project environ gateway p
      (World.start services t files)
    rw [hprepare, after_error] at hw
    exact ⟨services', hw⟩

/-! ## A plan file whose method does not exist -/

/-- A plan file that calls one method twice. -/
def repeatedText : String :=
  "\x7b\"commands\": [" ++
    "\x7b\"objectType\": \"S3\", \"method\": \"get\", \"resultsID\": \"a\"\x7d, " ++
    "\x7b\"objectType\": \"S3\", \"method\": \"get\", \"resultsID\": \"b\"\x7d]\x7d"

def repeatedCall (id : String) : Command :=
  ⟨"S3", "get", .map [], id, []⟩

/-- The document in the file. -/
def repeatedDocument : Value :=
  .record [("commands", .list ([repeatedCall "a", repeatedCall "b"].map fun c => .record [
    ("objectType", .text c.objectType), ("method", .text c.method), ("resultsID", .text c.id)]))]

def repeatedPlan : Plan :=
  ⟨[repeatedCall "a", repeatedCall "b"], [], some (.ofText "plan.json")⟩

def repeatedFiles : FileSystem :=
  planFiles (Text.Utf8.encode repeatedText)

set_option maxRecDepth 4000 in
theorem decodeText_repeatedText :
    Text.Utf8.decodeText (Text.Utf8.encode repeatedText) = .ok repeatedText := by
  cbv

set_option maxRecDepth 4000 in
theorem ofText_repeatedText :
    (Json.ofText repeatedText).map Value.ofJson = .ok repeatedDocument := by
  cbv

theorem load_repeatedFiles :
    Plan.load repeatedFiles (.ofText "plan.json") = .ok repeatedPlan := by
  have hjson : Plan.jsonDocument (Text.Utf8.encode repeatedText) = .ok repeatedDocument :=
    (Plan.jsonDocument_of_decodeText decodeText_repeatedText).trans ofText_repeatedText
  have hplan : Plan.ofDocument (some (.ofText "plan.json")) repeatedDocument = .ok repeatedPlan :=
    rfl
  rw [Plan.load, repeatedFiles, readDocument_planFiles hjson]
  show (Plan.ofDocument (some (.ofText "plan.json")) repeatedDocument).mapError .cause = _
  rw [hplan]
  rfl

/-- A gateway to services that have no methods. -/
def emptyGateway : Gateway Nat where
  name := "empty"
  connect _ := pure ⟨fun objectType method =>
    throw (.cause (.unknownOperation (capabilityName objectType method) method))⟩

/-- The plan's first method is not found, and nothing has been called or told. -/
theorem runFile_failure_emptyGateway :
    everySecond.Ordinary
      ∧ runFile .bare [] emptyGateway.recorded everySecond.noted none (fun _ => 0) "run"
          (.ofText "plan.json") ((World.start 0 0 repeatedFiles).noted [] [])
        = .error (.cause (.unknownOperation "S3.get" "get"))
          ((World.start 0 0 repeatedFiles).noted [] []) := by
  have hprepare : prepare .bare [] emptyGateway (.ofText "plan.json")
      (World.start 0 0 repeatedFiles) =
        .error (.cause (.unknownOperation "S3.get" "get")) (World.start 0 0 repeatedFiles) := by
    have hload : load (.ofText "plan.json") (World.start 0 0 repeatedFiles) =
        .ok repeatedPlan (World.start 0 0 repeatedFiles) :=
      lift_eq_ok_iff.mpr ⟨load_repeatedFiles, rfl⟩
    refine run_bind_eq_error_iff.mpr (.inr ⟨_, _, hload, ?_⟩)
    rfl
  have hrun : runFile .bare [] emptyGateway everySecond none (fun _ => 0) "run"
      (.ofText "plan.json") (World.start 0 0 repeatedFiles) =
        .error (.cause (.unknownOperation "S3.get" "get")) (World.start 0 0 repeatedFiles) :=
    runFile_eq_error_iff.mpr (.inl hprepare)
  exact ⟨ordinary_everySecond, ((runFile_failure ordinary_everySecond .bare [] emptyGateway none
    (fun _ => 0) "run" (.ofText "plan.json") 0 0 repeatedFiles).2 _ _ hrun).1⟩

end Run

end CallPlan
