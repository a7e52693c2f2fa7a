import CallPlan.Json.Reader
import CallPlan.Plan.Schema
import CallPlan.Text.Case
import CallPlan.Toml.Reader

/-!
# Plan documents

A plan is read from a JSON or TOML file, by the suffix of its name, and made from the
document if that passes its checks. Parameters that are not given are empty, and so are
expected properties. A file that holds no document is a failure, but one that writes an
integer with too many digits ends all with a fault.
-/

namespace CallPlan

def Command.ofValue (v : Value) : Command where
  objectType := Plan.textField v "objectType"
  method := Plan.textField v "method"
  params := (v.field? "params").getD (.map [])
  id := Plan.textField v "resultsID"
  expected := ((v.field? "expectedResults").bind Value.entries?).getD []

namespace Plan

def versionsOf (v : Value) : List (String × String) :=
  Fields.distinct (((v.field? "apiVersions").bind Value.entries?).getD [] |>.map
    fun (k, x) => (k.plain, x.plain))

def ofDocument (source : Option Path) (v : Value) : Except Failure.Cause Plan :=
  let report := validate v
  if report.ok then
    .ok ⟨(commandValues v).map Command.ofValue, versionsOf v, source⟩
  else .error (.invalidPlan report)

/-- The text that bytes encode, as far as a reader cares. -/
def decoded (bytes : List UInt8) : Except ReadError String :=
  (Text.Utf8.decodeText bytes).mapError fun _ => .malformed

def tomlDocument (bytes : List UInt8) : Except ReadError Value := do
  return .ofToml (.table (← Toml.ofText (← decoded bytes)))

def jsonDocument (bytes : List UInt8) : Except ReadError Value := do
  return .ofJson (← Json.ofText (← decoded bytes))

/-- Why a file holds no document: a failure, or the fault of an integer in it. -/
def refusal (cause : Failure.Cause) : ReadError → Halt
  | .malformed => .cause cause
  | .longNumeral digits => .fault (.longNumeral digits)

def readDocument (fs : FileSystem) (p : Path) : Except Halt Value :=
  match fs.read p with
  | .error e =>
    match e.cause with
    | .nullCharacter => .error (.fault (.file e))
    | .notFound => .error (.cause (.planMissing p))
    | cause => .error (.cause (.planUnreadable p cause))
  | .ok bytes =>
    if Text.lower p.suffix = ".toml" then (tomlDocument bytes).mapError (refusal (.badToml p))
    else (jsonDocument bytes).mapError (refusal (.badJson p))

def load (fs : FileSystem) (p : Path) : Except Halt Plan := do
  (ofDocument (some p) (← readDocument fs p)).mapError .cause

end Plan

end CallPlan
