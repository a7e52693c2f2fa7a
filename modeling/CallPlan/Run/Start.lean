import CallPlan.Plan.Document
import CallPlan.Service.Registry
import CallPlan.Service.Settings

/-!
# Running a plan from a file

The plan is read and checked, the settings are resolved, a connection is opened and
everything that the plan calls is bound. Only then does the run begin, so whatever is
wrong with the plan or the settings is found before anything is called.
-/

namespace CallPlan

/-- Opens connections to services. -/
structure Gateway (σ : Type) where
  /-- The name under which the registry knows the gateway. -/
  name : String
  connect : Settings → EStateM Halt σ (Binder σ)

/-- An environment with some variables set anew. -/
def Environment.with (environ overrides : Environment) : Environment :=
  overrides.foldl (fun env (name, v) => Fields.set name v env) environ

def Environment.get? (environ : Environment) (name : String) : Option String :=
  Fields.get? name environ

def versionEntries (versions : List (String × String)) : List (Value × Value) :=
  versions.map fun (k, v) => (.text k, .text v)

namespace Run

variable {σ τ : Type}

def withServices {α : Type} (x : EStateM Halt σ α) : EStateM Halt (World σ τ) α := fun w =>
  match x w.services with
  | .ok a s => .ok a { w with services := s }
  | .error h s => .error h { w with services := s }

def load (p : Path) : EStateM Halt (World σ τ) Plan := fun w =>
  lift (Plan.load w.files p) w

def settingsFor (project : Project) (environ : Environment) (p : Plan) : Except Halt Settings :=
  (Settings.resolve (versionEntries p.versions) environ.get? project).mapError .fault

/-- Everything that comes before the run itself: the plan, and the registry of what it
calls. -/
def prepare (project : Project) (environ : Environment) (gateway : Gateway σ) (p : Path) :
    EStateM Halt (World σ τ) (Plan × Registry σ) := do
  let plan ← load p
  let settings ← lift (settingsFor project environ plan)
  let binder ← withServices (gateway.connect settings)
  let registry ← withServices (Registry.build binder gateway.name plan.commands)
  return (plan, registry)

def runFile (project : Project) (environ : Environment) (gateway : Gateway σ) (sink : Sink τ)
    (base : Option Path) (elapsed : Nat → Nat) (runId : String) (p : Path) :
    EStateM Halt (World σ τ) RunReport := do
  let (plan, registry) ← prepare project environ gateway p
  submit ⟨environ.get?, base, project, elapsed⟩ registry.invoker sink runId plan.commands

end Run

end CallPlan
