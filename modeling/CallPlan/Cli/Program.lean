import CallPlan.Cli.Command
import CallPlan.Plan.References
import CallPlan.Run.Log
import CallPlan.Run.Start

/-!
# The program

Whatever a command ends with is printed as a JSON document: the report of a check, the
summary of a run, or the failure that kept a plan from being run. The exit code tells
whether all went well. Only failures about plans and settings are printed; any other
error ends the program.
-/

namespace CallPlan.Cli

/-- What the program finds around it. -/
structure Surroundings (σ : Type) where
  environ : Environment
  project : Project
  gateway : Gateway σ
  now : DateTime
  runId : String
  elapsed : Nat → Nat

/-- What the program leaves: an exit code and a printed text. -/
structure Output where
  exitCode : Nat
  printed : String
  deriving DecidableEq, Repr

abbrev State (σ : Type) := World σ Log

variable {σ : Type}

/-! ## Documents -/

def issueValue (i : Issue) : Value :=
  .record [
    ("code", .text i.code),
    ("msg", .text i.message),
    ("path", .text i.path),
    ("severity", .text (if i.severity = .error then "ERROR" else "WARN"))]

def reportFields (r : Report) : List (String × Value) := [
  ("ok", .bool r.ok),
  ("errors", .list (r.errors.map issueValue)),
  ("warnings", .list (r.warnings.map issueValue))]

def failureFields (f : Failure) : List (String × Value) :=
  match f.cause.report? with
  | none => [("ok", .bool false), ("error", f.describe)]
  | some r => ("error", f.describe) :: reportFields r

def outcomeValue (o : Outcome) : Value :=
  .record [
    ("index", .int o.index),
    ("results_id", .text o.id),
    ("status", .text o.status.name),
    ("duration_ms", .int o.elapsed)]

def summaryFields (r : RunReport) (log : Log) : List (String × Value) :=
  [("run_id", .text r.runId), ("ok", .bool r.ok),
    ("outcomes", .list (r.outcomes.map outcomeValue))] ++
  (r.failed?.map fun o => ("failed_index", Value.int o.index)).toList ++
  (r.failure?.map fun f => ("error", f.describe)).toList ++
  (log.current.map fun p => ("log", Value.text p.text)).toList

def document (fields : List (String × Value)) : String :=
  match Json.ofValue (.record fields) with
  | .ok j => j.write .page ++ "\n"
  | .error _ => ""

/-! ## Commands -/

def overrides (o : RunOptions) : Environment :=
  let text (name : String) (v : Option String) := ((Settings.usableText? v).map (name, ·)).toList
  let number (name : String) (v : Option Binary64) := (v.map fun x => (name, x.text)).toList
  text "CLI_AWS_REGION" o.region ++ text "CLI_AWS_PROFILE" o.profile ++
    number "CLI_INVOKER_CONNECT_TIMEOUT" o.connectTimeout ++
    number "CLI_INVOKER_READ_TIMEOUT" o.readTimeout

/-- Prints the failures about plans and settings that a command ends with. -/
def reporting (x : EStateM Halt (State σ) Output) : EStateM Halt (State σ) Output := fun w =>
  match x w with
  | .error (.failure f) w =>
    if f.kind = .config then .ok ⟨1, document (failureFields f)⟩ w else .error (.failure f) w
  | r => r

def exitCode (ok : Bool) : Nat :=
  if ok then 0 else 1

def configureLog (directory : Option String) : EStateM Halt (State σ) Unit := fun w =>
  match Settings.usableText? directory with
  | some d => .ok () { w with sink := .configured (.ofText d) none }
  | none => .ok () w

/-- The summary of a run, which tells the file of the event log. -/
def summarised (r : RunReport) : EStateM Halt (State σ) Output := fun w =>
  .ok ⟨exitCode r.ok, document (summaryFields r w.sink)⟩ w

def runCommand (s : Surroundings σ) (file : String) (o : RunOptions) :
    EStateM Halt (State σ) Output := do
  configureLog o.logDirectory
  reporting do
    let environ := s.environ.with (overrides o)
    let sink := Log.sink s.project s.now s.runId
    let report ←
      Run.runFile s.project environ s.gateway sink none s.elapsed s.runId (.ofText file)
    summarised report

def checkCommand (s : Surroundings σ) (file : String) : EStateM Halt (State σ) Output :=
  reporting fun w =>
    match Plan.load w.files (.ofText file) with
    | .error h => .error h w
    | .ok plan =>
      match Plan.checkReferences (some s.environ.get?) w.files none plan with
      | .error f => .error (.fault f) w
      | .ok r => .ok ⟨exitCode r.ok, document (reportFields r)⟩ w

def perform (s : Surroundings σ) (args : List String) : EStateM Halt (State σ) Output :=
  match request args with
  | .error refusal => pure ⟨refusal.exitCode, ""⟩
  | .ok (.run file o) => runCommand s file o
  | .ok (.check file) => checkCommand s file

end CallPlan.Cli
