import CallPlan.Failure

/-!
# Plans

A plan is a list of calls of remote services. Each command says which method of which
type of object to call, with which parameters, under which id to publish the result,
and which properties the result is expected to have. A plan may also fix the versions
of the services it calls.
-/

namespace CallPlan

/-- A call of a service. -/
structure Command where
  objectType : String
  method : String
  /-- The parameters, whose texts are templates. -/
  params : Value
  /-- The id under which the result is published. -/
  id : String
  /-- The properties that the result is expected to have. -/
  expected : List (Value × Value)
  deriving BEq, Repr

def capabilityName (objectType method : String) : String :=
  objectType ++ "." ++ method

def Command.capability (c : Command) : String :=
  capabilityName c.objectType c.method

/-- A list of calls. -/
structure Plan where
  commands : List Command
  /-- Versions of services, by the types of objects or by the services' names. -/
  versions : List (String × String)
  source : Option Path
  deriving BEq, Repr

end CallPlan
