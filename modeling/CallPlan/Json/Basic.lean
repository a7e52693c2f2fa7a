import CallPlan.Value.Basic

/-!
# JSON data

The data of a JSON text. Integers are exact and apart from the other numbers,
which are binary. The members of an object keep their order.
-/

namespace CallPlan

/-- The data of a JSON text. -/
inductive Json
  | null
  | bool (b : Bool)
  | int (n : Int)
  | float (x : Binary64)
  | text (s : String)
  | list (items : List Json)
  | object (members : List (String × Json))
  deriving Inhabited, BEq, Repr

mutual

def Value.ofJson : Json → Value
  | .null => .null
  | .bool b => .bool b
  | .int n => .int n
  | .float x => .float x
  | .text s => .text s
  | .list xs => .list (Value.ofJsonItems xs)
  | .object ms => .map (Value.ofJsonMembers ms)

def Value.ofJsonItems : List Json → List Value
  | [] => []
  | x :: xs => Value.ofJson x :: Value.ofJsonItems xs

def Value.ofJsonMembers : List (String × Json) → List (Value × Value)
  | [] => []
  | (name, x) :: ms => (.text name, Value.ofJson x) :: Value.ofJsonMembers ms

end

end CallPlan
