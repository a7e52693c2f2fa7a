import CallPlan.Template.Payload

/-!
# Scopes

A template is resolved in a scope: the results that have been published, the variables
of the environment, and the files that payloads are read from. The directory that their
paths begin in is one that was given, or the working directory, which may be gone.
-/

namespace CallPlan

/-- What a template may refer to. -/
structure Scope where
  results : String → Option Value
  environ : String → Option String
  files : FileSystem
  base : Except Fault Path
  project : Project

namespace FileSystem

/-- The working directory, if it is still there. -/
def here (fs : FileSystem) : Except Fault Path :=
  match fs.at? fs.working with
  | some (.directory _) => .ok ⟨.single, fs.working⟩
  | _ => .error .noWorkingDirectory

/-- The directory that relative paths begin in: one that was given, or the working
directory. -/
def baseOr (fs : FileSystem) (base : Option Path) : Except Fault Path :=
  match base with
  | some p => .ok p
  | none => fs.here

end FileSystem

namespace Scope

def env (s : Scope) (name : String) : Except Failure.Cause String :=
  match s.environ name with
  | some v => .ok v
  | none => .error (.unset name)

def result (s : Scope) (id : String) : Except Failure.Cause Value :=
  match s.results id with
  | some v => .ok v
  | none => .error (.unpublished id)

end Scope

abbrev Environment := List (String × String)

end CallPlan
