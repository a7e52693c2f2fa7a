import CallPlan.Plan.Basic

/-!
# Events

A run tells what happens by events. They carry the parameters of calls with byte
strings replaced by their lengths, so no content of a payload is in them.
-/

namespace CallPlan

mutual

/-- A value without byte strings: each is replaced by a text that tells its length. Keys
become texts, and tuples lists. -/
def Value.summary : Value → Value
  | .bytes bs => .text s!"<bytes:{bs.length}>"
  | .list xs => .list (Value.summaries xs)
  | .tuple xs => .list (Value.summaries xs)
  | .map es => .record (Fields.distinct (Value.entrySummaries es))
  | v => v

def Value.summaries : List Value → List Value
  | [] => []
  | x :: xs => x.summary :: Value.summaries xs

def Value.entrySummaries : List (Value × Value) → List (String × Value)
  | [] => []
  | (k, v) :: es => (k.plain, v.summary) :: Value.entrySummaries es

end

/-- What happens in a run. Times are in milliseconds. -/
inductive Event
  | runStarted (commands : Nat)
  | commandStarted (index : Nat) (id capability : String) (params : Value)
  | commandFailed (index : Nat) (id : String) (elapsed : Nat) (failure : Failure)
  | commandCompleted (index : Nat) (id : String) (elapsed : Nat)
  | commandSkipped (index : Nat) (id : String)
  | runFinished (ok : Bool) (published : List String)
  deriving BEq, Repr

namespace Event

def name : Event → String
  | runStarted _ => "run.started"
  | commandStarted .. => "command.started"
  | commandFailed .. => "command.failed"
  | commandCompleted .. => "command.completed"
  | commandSkipped .. => "command.skipped"
  | runFinished .. => "run.finished"

def details : Event → List (String × Value)
  | runStarted commands => [("commands", .int commands)]
  | commandStarted index id capability params =>
    [("index", .int index), ("results_id", .text id), ("capability", .text capability),
      ("params", params)]
  | commandFailed index id elapsed failure =>
    [("index", .int index), ("results_id", .text id), ("duration_ms", .int elapsed),
      ("error", failure.describe)]
  | commandCompleted index id elapsed =>
    [("index", .int index), ("results_id", .text id), ("duration_ms", .int elapsed)]
  | commandSkipped index id => [("index", .int index), ("results_id", .text id)]
  | runFinished ok published =>
    [("ok", .bool ok), ("published", .list (published.map .text))]

def fields (runId : String) (e : Event) : List (String × Value) :=
  [("event", .text e.name), ("run_id", .text runId)] ++ e.details

end Event

end CallPlan
