import CallPlan.Run.Execution

/-!
# Registries

A registry is the table of what a run may call: a handler for each type of object and
method. It is made for the commands of a plan before anything runs, so a method that
does not exist is found while nothing has happened yet. A binder makes the handlers.
-/

namespace CallPlan

/-- Makes the handler for a method of a type of object. -/
structure Binder (σ : Type) where
  bind : (objectType method : String) → EStateM Halt σ (Handler σ)

/-- What may be called: a handler, and where it comes from. -/
structure Capability (σ : Type) where
  objectType : String
  method : String
  handler : Handler σ
  source : String

def Capability.name {σ : Type} (c : Capability σ) : String :=
  capabilityName c.objectType c.method

/-- The capabilities by types of objects and methods, in the order of registration. -/
structure Registry (σ : Type) where
  capabilities : List ((String × String) × Capability σ)

namespace Registry

variable {σ : Type}

def empty : Registry σ := ⟨[]⟩

def keys (r : Registry σ) : List (String × String) :=
  Fields.keys r.capabilities

def find? (r : Registry σ) (objectType method : String) : Option (Capability σ) :=
  Fields.get? (objectType, method) r.capabilities

/-- Registers a handler, of which there must be none yet. -/
def register (r : Registry σ) (objectType method : String) (handler : Handler σ)
    (source : String) : Except Failure.Cause (Registry σ) :=
  match r.find? objectType method with
  | some _ => .error (.duplicateCapability (capabilityName objectType method))
  | none => .ok ⟨r.capabilities ++
      [((objectType, method), ⟨objectType, method, handler, source⟩)]⟩

def get (r : Registry σ) (objectType method : String) : Except Failure.Cause (Capability σ) :=
  match r.find? objectType method with
  | some c => .ok c
  | none => .error (.unregistered (capabilityName objectType method))

def invoker (r : Registry σ) : Invoker σ where
  invoke objectType method params := fun s =>
    match r.get objectType method with
    | .ok c => c.handler params s
    | .error cause => .error (.cause cause) s

/-- What a binder ends with: a failure as it is, anything else as a failed binding. -/
def reported (objectType method : String) : Halt → Halt
  | .failure f => .failure f
  | .fault f => .cause (.bindFailed (capabilityName objectType method) f.message)

def bind (binder : Binder σ) (c : Command) : EStateM Halt σ (Handler σ) := fun s =>
  match binder.bind c.objectType c.method s with
  | .ok h s => .ok h s
  | .error h s => .error (reported c.objectType c.method h) s

/-- Registers what commands call in addition to what is registered. Each method is
bound once, when the first command calls it. -/
def extend (binder : Binder σ) (source : String) :
    Registry σ → List Command → EStateM Halt σ (Registry σ)
  | r, [] => pure r
  | r, c :: cs =>
    if (r.find? c.objectType c.method).isSome then extend binder source r cs
    else do
      let handler ← bind binder c
      match r.register c.objectType c.method handler source with
      | .ok r => extend binder source r cs
      | .error cause => throw (.cause cause)

def build (binder : Binder σ) (source : String) (commands : List Command) :
    EStateM Halt σ (Registry σ) :=
  extend binder source empty commands

end Registry

end CallPlan
