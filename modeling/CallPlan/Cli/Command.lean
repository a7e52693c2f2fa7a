import CallPlan.Cli.Options

/-!
# The two commands

The program runs the plan in a file, or checks it without calling anything. Options of
the run fix the region, the credentials profile, the timeouts and the directory of the
event log. In front of the command the level of diagnostic messages can be chosen.
-/

namespace CallPlan.Cli

/-- The options of a run. -/
structure RunOptions where
  region : Option String
  profile : Option String
  connectTimeout : Option Binary64
  readTimeout : Option Binary64
  logDirectory : Option String
  deriving DecidableEq, Repr

/-- What the program is asked to do. -/
inductive Request
  | run (file : String) (options : RunOptions)
  | check (file : String)
  deriving DecidableEq, Repr

def runNames : List String :=
  ["--region", "--profile", "--connect-timeout", "--read-timeout", "--log-dir"]

def generalNames : List String := ["--log-level"]

def levels : List String := ["DEBUG", "INFO", "WARNING", "ERROR"]

def acceptsRun (name v : String) : Bool :=
  if name = "--connect-timeout" ∨ name = "--read-timeout" then
    (Numeral.binary64? v).isSome
  else true

/-- The request of a command with its arguments. A word that belongs to nothing makes the
command line wrong. -/
def requestOf (command : String) (args : List String) (extra : Bool) : Except Refusal Request :=
  if command = "run" then do
    let r ← readLine runNames acceptsRun args
    match r.file with
    | some file =>
      if r.extra || extra then .error .usage
      else
        return .run file {
          region := r.value? "--region"
          profile := r.value? "--profile"
          connectTimeout := (r.value? "--connect-timeout").bind Numeral.binary64?
          readTimeout := (r.value? "--read-timeout").bind Numeral.binary64?
          logDirectory := r.value? "--log-dir" }
    | none => .error .usage
  else if command = "check" then do
    let r ← readLine [] (fun _ _ => true) args
    match r.file with
    | some file => if r.extra || extra then .error .usage else return .check file
    | none => .error .usage
  else .error .usage

/-- The request of a command line, of which some words may have belonged to nothing. -/
def requestFrom (extra : Bool) : List String → Except Refusal Request
  | [] => .error .usage
  | arg :: args =>
    if arg = "--" then .error .usage
    else
      match classify generalNames arg with
      | .plain command => requestOf command args extra
      | .help valid => .error (if valid then .help else .usage)
      | .option _ (some v) => if v ∈ levels then requestFrom extra args else .error .usage
      | .option _ none =>
        match args with
        | v :: rest => if v ∈ levels then requestFrom extra rest else .error .usage
        | [] => .error .usage
      | .unknown => requestFrom true args
      | .separator | .ambiguous => .error .usage

def request (args : List String) : Except Refusal Request :=
  if .ambiguous ∈ words generalNames args then .error .usage else requestFrom false args

end CallPlan.Cli
