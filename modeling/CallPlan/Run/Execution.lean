import CallPlan.Run.Event
import CallPlan.Run.Expectation
import CallPlan.Run.Store
import CallPlan.Template.Resolution

/-!
# Runs

A run performs commands one after the other. For each command it resolves the
parameters against the results so far, calls the service, publishes the result and
compares it with what was expected. The first failure ends the run: the commands behind
it are skipped and never called. What happens is told to a sink. A sink that refuses an
event with an ordinary error only loses that event.

A run takes place in a world: the state of the services, the state of the sink, the
files, and the results so far. Faults are no part of a report: they end the run at
once and leave the world as it is then.
-/

namespace CallPlan

abbrev Handler (σ : Type) := Value → EStateM Halt σ Value

/-- Whatever performs the calls of a run. -/
structure Invoker (σ : Type) where
  invoke : (objectType method : String) → Handler σ

/-- Whatever events are told to. It may write files. -/
structure Sink (τ : Type) where
  emit : Event → EStateM Halt (τ × FileSystem) Unit

/-- The state that a run changes. -/
structure World (σ τ : Type) where
  services : σ
  sink : τ
  files : FileSystem
  store : Store

/-- What stays the same during a run. -/
structure Job where
  environ : String → Option String
  /-- The directory that payload paths are relative to; otherwise the working
  directory. -/
  base : Option Path
  project : Project
  /-- How long each command takes, in milliseconds. -/
  elapsed : (index : Nat) → Nat

/-! ## Outcomes -/

/-- How a command ended. -/
inductive Status
  | ok
  | failed (failure : Failure)
  | skipped
  deriving BEq, Repr

def Status.name : Status → String
  | ok => "ok"
  | failed _ => "failed"
  | skipped => "skipped"

def Status.failure? : Status → Option Failure
  | failed f => some f
  | _ => none

/-- What happened to one command. -/
structure Outcome where
  index : Nat
  id : String
  status : Status
  elapsed : Nat
  deriving BEq, Repr

/-- What happened in a run. -/
structure RunReport where
  runId : String
  outcomes : List Outcome
  results : Store

namespace RunReport

def failed? (r : RunReport) : Option Outcome :=
  r.outcomes.find? fun o => o.status.failure?.isSome

def ok (r : RunReport) : Bool :=
  r.failed?.isNone

def failedIndex? (r : RunReport) : Option Nat :=
  r.failed?.map Outcome.index

def failure? (r : RunReport) : Option Failure :=
  r.failed?.bind fun o => o.status.failure?

end RunReport

/-! ## Steps -/

namespace Run

variable {σ τ : Type}

def lift {ω α : Type} (x : Except Halt α) : EStateM Halt ω α := fun w =>
  match x with
  | .ok a => .ok a w
  | .error h => .error h w

/-- An ordinary error: a sink that raises one only loses the event. -/
def isOrdinary : Halt → Bool
  | .fault f => f.family ∈ [.system, .type, .value]
  | .failure _ => false

def emit (sink : Sink τ) (e : Event) : EStateM Halt (World σ τ) Unit := fun w =>
  match sink.emit e (w.sink, w.files) with
  | .ok _ (t, fs) => .ok () { w with sink := t, files := fs }
  | .error h (t, fs) =>
    let w := { w with sink := t, files := fs }
    if isOrdinary h then .ok () w else .error h w

def scope (job : Job) (w : World σ τ) : Scope where
  results := w.store.get?
  environ := job.environ
  files := w.files
  base := w.files.baseOr job.base
  project := job.project

def resolve (job : Job) (params : Value) : EStateM Halt (World σ τ) Value := fun w =>
  lift (Template.resolve (scope job w) params) w

/-- What a call ends with: a failure as it is, anything else as a failed call. -/
def reported (capability : String) : Halt → Halt
  | .failure f => .failure f
  | .fault f => .cause (.callFailed capability f.message)

def call (invoker : Invoker σ) (c : Command) (params : Value) :
    EStateM Halt (World σ τ) Value := fun w =>
  match invoker.invoke c.objectType c.method params w.services with
  | .ok v s => .ok v { w with services := s }
  | .error h s => .error (reported c.capability h) { w with services := s }

def publish (id : String) (v : Value) : EStateM Halt (World σ τ) Unit := fun w =>
  match w.store.publish id v with
  | .ok store => .ok () { w with store }
  | .error cause => .error (.cause cause) w

def perform (job : Job) (invoker : Invoker σ) (sink : Sink τ) (index : Nat) (c : Command) :
    EStateM Halt (World σ τ) Unit := do
  let params ← resolve job c.params
  emit sink (.commandStarted index c.id c.capability params.summary)
  let result ← call invoker c params
  publish c.id result
  lift (Expectation.verify c.id c.expected result)

def attempt {ω : Type} (x : EStateM Halt ω Unit) : EStateM Halt ω (Option Failure) := fun w =>
  match x w with
  | .ok _ w => .ok none w
  | .error (.failure f) w => .ok (some f) w
  | .error (.fault f) w => .error (.fault f) w

/-! ## Whole runs -/

/-- Skips commands, of which the first one has a given index. -/
def skip (sink : Sink τ) : (index : Nat) → List Command → EStateM Halt (World σ τ) (List Outcome)
  | _, [] => pure []
  | n, c :: cs => do
    emit sink (.commandSkipped n c.id)
    let rest ← skip sink (n + 1) cs
    return ⟨n, c.id, .skipped, 0⟩ :: rest

/-- Performs commands, of which the first one has a given index, up to the first
failure. -/
def performAll (job : Job) (invoker : Invoker σ) (sink : Sink τ) :
    (index : Nat) → List Command → EStateM Halt (World σ τ) (List Outcome)
  | _, [] => pure []
  | n, c :: cs => do
    match ← attempt (perform job invoker sink n c) with
    | some f =>
      emit sink (.commandFailed n c.id (job.elapsed n) f)
      let rest ← skip sink (n + 1) cs
      return ⟨n, c.id, .failed f, job.elapsed n⟩ :: rest
    | none =>
      emit sink (.commandCompleted n c.id (job.elapsed n))
      let rest ← performAll job invoker sink (n + 1) cs
      return ⟨n, c.id, .ok, job.elapsed n⟩ :: rest

def published : EStateM Halt (World σ τ) Store := fun w => .ok w.store w

def submit (job : Job) (invoker : Invoker σ) (sink : Sink τ) (runId : String)
    (commands : List Command) : EStateM Halt (World σ τ) RunReport := do
  emit sink (.runStarted commands.length)
  let outcomes ← performAll job invoker sink 0 commands
  let results ← published
  let report : RunReport := ⟨runId, outcomes, results⟩
  emit sink (.runFinished report.ok results.ids)
  return report

/-- The world in which a run begins: nothing has been published. -/
def World.start (services : σ) (sink : τ) (files : FileSystem) : World σ τ :=
  ⟨services, sink, files, .empty⟩

def idOfNumber (n : Nat) : String :=
  "run-" ++ String.ofList (Text.hexDigits 12 n)

end Run

end CallPlan
