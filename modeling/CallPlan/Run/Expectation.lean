import CallPlan.Failure

/-!
# Expectations

A command may name properties that its result is expected to have. A property is
compared by canonical text. One that is missing never meets its expectation, not even
an expected null, and neither does one without canonical text. Properties that are not
named do not matter.
-/

namespace CallPlan.Expectation

def actualText (v : Value) : String :=
  match Canonical.text v with
  | .ok text => text
  | .error _ => "<unserialisable " ++ v.kind.name ++ ">"

/-- The property of a result under a name, which may be a key of any kind. -/
def property? (name : Value) (result : Value) : Option Value :=
  result.entries?.bind (Value.find? name)

/-- How a property misses its expectation, if it does. -/
def mismatch? (name : Value) (wanted : String) (result : Value) : Option Mismatch :=
  match property? name result with
  | none => some ⟨name, wanted, none⟩
  | some v =>
    let actual := actualText v
    if actual = wanted then none else some ⟨name, wanted, some actual⟩

/-- The expected properties that a result does not have. An expectation without
canonical text cannot be compared. -/
def compare : (expected : List (Value × Value)) → (result : Value) →
    Except Canonical.Error (List Mismatch)
  | [], _ => .ok []
  | (name, want) :: rest, result => do
    let wanted ← Canonical.text want
    let ms ← compare rest result
    return (mismatch? name wanted result).toList ++ ms

def verify (id : String) (expected : List (Value × Value)) (result : Value) :
    Except Halt Unit :=
  match compare expected result with
  | .error e => .error (.fault (.canonical e))
  | .ok [] => .ok ()
  | .ok ms =>
    if ms.all (·.name.kind = .text) then .error (.cause (.mismatch id ms))
    else .error (.fault .expectationName)

end CallPlan.Expectation
