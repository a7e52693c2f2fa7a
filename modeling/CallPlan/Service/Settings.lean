import CallPlan.Project
import CallPlan.Template.Scope
import CallPlan.Text.Case

/-!
# Settings of a session

The region, the credentials profile and the two timeouts may come from the command
line, from the environment, from the project's configuration or from a default, in this
order: the first source that has a usable value decides, and the settings tell which
one that was. Values from the command line are variables of the environment as well,
with names of their own.

A text is usable if it is not empty, a timeout if it is or writes a number greater than
zero.
-/

namespace CallPlan

/-- Where a setting comes from, the strongest source first. -/
inductive Origin
  | commandLine
  | environment
  | configuration
  | default
  deriving DecidableEq, Repr

def Origin.name : Origin → String
  | commandLine => "cli"
  | environment => "env"
  | configuration => "config"
  | default => "default"

/-- A setting with its origin. -/
structure Setting (α : Type) where
  value : α
  origin : Origin
  deriving DecidableEq, Repr

/-- What a session is opened with. -/
structure Settings where
  region : Setting (Option String)
  profile : Setting (Option String)
  /-- Versions of services, by types of objects or by services, in lower case. -/
  versions : List (String × String)
  /-- Services of types of objects, these in lower case. -/
  aliases : List (String × String)
  connectTimeout : Setting Binary64
  readTimeout : Setting Binary64
  /-- How often a call is tried. -/
  maxAttempts : Int
  deriving Repr

namespace Settings

def defaultConnectTimeout : Binary64 := .ofDecimal false 10 0

def defaultReadTimeout : Binary64 := .ofDecimal false 60 0

def initial : Settings where
  region := ⟨none, .default⟩
  profile := ⟨none, .default⟩
  versions := []
  aliases := []
  connectTimeout := ⟨defaultConnectTimeout, .default⟩
  readTimeout := ⟨defaultReadTimeout, .default⟩
  maxAttempts := 1

/-! ## One setting -/

def usableText? (s : Option String) : Option String :=
  s.filter (· ≠ "")

def configuredText? (v : Option Value) : Option String :=
  match v with
  | some (.text s) => usableText? (some s)
  | _ => none

def pickText (commandLine environment : Option String) (configuration : Option Value) :
    Setting (Option String) :=
  match usableText? commandLine, usableText? environment, configuredText? configuration with
  | some s, _, _ => ⟨some s, .commandLine⟩
  | none, some s, _ => ⟨some s, .environment⟩
  | none, none, some s => ⟨some s, .configuration⟩
  | none, none, none => ⟨none, .default⟩

def usableNumber? (s : Option String) : Option Binary64 :=
  (s.bind Numeral.binary64?).filter Binary64.isPositive

def configuredNumber? (v : Option Value) : Except Fault (Option Binary64) :=
  match v with
  | none | some .null => .ok none
  | some v =>
    match Project.realNumber v with
    | .ok x => .ok (if x.isPositive then some x else none)
    | .error f => if Project.isUnusable f then .ok none else .error f

/-- The number from the strongest source that has one, or the default. The
configuration is only looked at where no stronger source has a number. -/
def pickNumber (commandLine environment : Option String) (configuration : Option Value)
    (default : Binary64) : Except Fault (Setting Binary64) :=
  match usableNumber? commandLine, usableNumber? environment with
  | some x, _ => .ok ⟨x, .commandLine⟩
  | none, some x => .ok ⟨x, .environment⟩
  | none, none =>
    (configuredNumber? configuration).map fun
      | some x => ⟨x, .configuration⟩
      | none => ⟨default, .default⟩

/-- The number of attempts that a value is or writes; at least one. -/
def attempts (v : Option Value) : Except Fault Int :=
  match Project.wholeNumber (v.getD (.int 1)) with
  | .ok n => .ok (max 1 n)
  | .error f => if Project.isUnusable f then .ok 1 else .error f

/-! ## All settings -/

/-- The section of the configuration about sessions. A section that is no table is as
good as none. -/
def policy (project : Project) : Except Fault (List (Value × Value)) := do
  return (← project.setting "invoker" (.map [])).entries?.getD []

/-- Keys in lower case with values, all of them as texts. -/
def lowered (es : List (Value × Value)) : Except Fault (List (String × String)) :=
  if Value.entriesWritable es then
    .ok (Fields.distinct (es.map fun (k, v) => (Text.lower k.plain, v.plain)))
  else .error .longInteger

def aliasesOf (policy : List (Value × Value)) : Except Fault (List (String × String)) :=
  lowered (((Value.lookup? "service_aliases" policy).bind Value.entries?).getD [])

def resolve (versions : List (Value × Value)) (environ : String → Option String)
    (project : Project) : Except Fault Settings := do
  let policy ← Settings.policy project
  let text (name : String) (setting : String) :=
    pickText (environ ("CLI_AWS_" ++ name)) (environ ("AWS_" ++ name))
      (Value.lookup? setting policy)
  let number (name : String) (setting : String) :=
    pickNumber (environ ("CLI_INVOKER_" ++ name)) (environ ("INVOKER_" ++ name))
      (Value.lookup? setting policy)
  let connectTimeout ← number "CONNECT_TIMEOUT" "connect_timeout_s" defaultConnectTimeout
  let readTimeout ← number "READ_TIMEOUT" "read_timeout_s" defaultReadTimeout
  let maxAttempts ← attempts (Value.lookup? "max_attempts" policy)
  let versions ← lowered versions
  let aliases ← aliasesOf policy
  return {
    region := text "REGION" "region"
    profile := text "PROFILE" "profile"
    versions, aliases, connectTimeout, readTimeout, maxAttempts }

end Settings

end CallPlan
