import CallPlan.Template.Lexer
import CallPlan.Template.Rendering
import CallPlan.Template.Scope
import CallPlan.Value.Place

/-!
# Following references

A reference is followed in steps, each of which may fail: variables in the names of
the result and of the field are expanded, the result is looked up, then its field. Where
the reference names an element, the field has to be a sequence; then variables in the
remaining names are expanded, the element is found, and its field looked up. An index
with too many digits is no number that could be looked up, and ends all with a fault.

The element with a value under a key is the first one that is a mapping with a value
there whose text is the wanted one. Elements before it do not matter, whatever they
hold, and a list, tuple or mapping is never the wanted value.
-/

namespace CallPlan

namespace Template

def expandChars (scope : Scope) : List Char → Except Failure.Cause (List Char)
  | [] => .ok []
  | '%' :: rest =>
    match _h : name? rest with
    | none => (expandChars scope rest).map ('%' :: ·)
    | some (name, behind) => do
      let v ← scope.env (String.ofList name)
      let cs ← expandChars scope behind
      return v.toList ++ cs
  | c :: rest => (expandChars scope rest).map (c :: ·)
termination_by cs => cs.length
decreasing_by
  · simp only [List.length_cons]; omega
  · have := length_lt_of_name? _h; simp only [List.length_cons]; omega
  · simp only [List.length_cons]; omega

def expand (scope : Scope) (text : String) : Except Failure.Cause String :=
  (expandChars scope text.toList).map String.ofList

def fieldOf (v : Value) (name place : String) : Except Failure.Cause Value :=
  match v.field? name with
  | some x => .ok x
  | none => .error (.missingField place name)

def itemsOf (v : Value) (place : String) : Except Failure.Cause (List Value) :=
  match v.items? with
  | some xs => .ok xs
  | none => .error (.notSequence place)

/-- The number that an index writes; none if it writes no number. -/
def index (text : String) : Except Fault (Option Nat) :=
  let digits := text.toList
  if digits ≠ [] ∧ digits.all Char.isDigit then
    if digits.length ≤ Numeral.maxDigits then .ok (some (Numeral.natOfDigits digits))
    else .error (.longNumeral digits.length)
  else .ok none

/-- The value that an element has under a key is the wanted one. -/
def isWanted (key wanted : String) (item : Value) : Bool :=
  match item.field? key with
  | none | some .null | some (.list _) | some (.tuple _) | some (.map _) => false
  | some v =>
    match render v with
    | .ok text => text == wanted
    | .error _ => false

def elementAt (items : List Value) (place text : String) : Except Halt (Nat × Value) := do
  match ← (index text).mapError .fault with
  | none => .error (.cause (.badIndex place text))
  | some n =>
    match items[n]? with
    | some item => return (n, item)
    | none => .error (.cause (.outOfRange place n items.length))

/-- The first element with a wanted value, counted from a number. -/
def firstWanted (key wanted : String) : (count : Nat) → List Value → Option (Nat × Value)
  | _, [] => none
  | n, item :: items =>
    if isWanted key wanted item then some (n, item) else firstWanted key wanted (n + 1) items

def elementWith (items : List Value) (place key wanted : String) :
    Except Failure.Cause (Nat × Value) :=
  match firstWanted key wanted 0 items with
  | some found => .ok found
  | none => .error (.noMatch place key wanted)

/-- The element that a selector names, with its index. Variables in the selector are
expanded first. -/
def select (scope : Scope) (items : List Value) (place : String) :
    Selector → Except Halt (Nat × Value)
  | .index text => do elementAt items place (← (expand scope text).mapError .cause)
  | .entry key wanted => Except.mapError .cause do
    let key ← expand scope key
    let wanted ← expand scope wanted
    elementWith items place key wanted

/-- The field that a reference names, with its place. -/
def target (scope : Scope) (r : Reference) : Except Failure.Cause (String × Value) := do
  let id ← expand scope r.id
  let field ← expand scope r.field
  let v ← fieldOf (← scope.result id) field id
  return (Place.field id field, v)

def follow (scope : Scope) (r : Reference) : Except Halt Value := do
  let (place, v) ← (target scope r).mapError .cause
  match r.element with
  | none => return v
  | some (selector, sub) =>
    let items ← (itemsOf v place).mapError .cause
    let sub ← (expand scope sub).mapError .cause
    let (n, item) ← select scope items place selector
    (fieldOf item sub (Place.item place n)).mapError .cause

def splice (scope : Scope) : Token → Except Halt String
  | .literal text => .ok text
  | .env name _ => (scope.env name).mapError .cause
  | .reference r => do (render (← follow scope r)).mapError .cause

def spliceAll (scope : Scope) : List Token → Except Halt String
  | [] => .ok ""
  | t :: ts => do
    let s ← splice scope t
    let rest ← spliceAll scope ts
    return s ++ rest

end Template

end CallPlan
