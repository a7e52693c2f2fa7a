import CallPlan.Value.Literal

/-!
# Places inside a value

A place is written as the way to it from the top: a point and the name for a field of
a mapping, brackets around the index for an item of a sequence.
-/

namespace CallPlan.Place

def top : String := "$"

def item (place : String) (index : Nat) : String :=
  s!"{place}[{index}]"

def field (place name : String) : String :=
  place ++ "." ++ name

/-- The entry of a mapping with a key. Integers and truth values are written like
indices. -/
def entry (place : String) (key : Value) : String :=
  match key with
  | .int _ | .bool _ => place ++ "[" ++ key.plain ++ "]"
  | _ => field place key.plain

end CallPlan.Place
