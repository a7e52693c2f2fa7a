import CallPlan.Calendar
import CallPlan.Number.Decimal

/-!
# Values

A value is what a command passes to a call and what a call gives back: the data
of JSON and TOML documents together with the decimals, byte strings and dates
that services answer with. Mappings keep the order of their entries and may have
keys of any kind; a key occurs once. An `object` is a value that has no data in
it at all.
-/

namespace CallPlan

/-- A parameter, a result, or a part of one. -/
inductive Value
  | null
  | bool (b : Bool)
  | int (n : Int)
  | float (x : Binary64)
  | decimal (d : Decimal)
  | text (s : String)
  | bytes (bs : List UInt8)
  | date (d : Date)
  | dateTime (d : DateTime)
  | time (t : ClockTime)
  | list (items : List Value)
  | tuple (items : List Value)
  | map (entries : List (Value × Value))
  | object
  deriving Inhabited, BEq, Repr

namespace Value

/-- What a value is, apart from its contents. -/
inductive Kind
  | null | bool | int | float | decimal | text | bytes
  | date | dateTime | time | list | tuple | map | object
  deriving DecidableEq, Repr

def kind : Value → Kind
  | .null => .null
  | .bool _ => .bool
  | .int _ => .int
  | .float _ => .float
  | .decimal _ => .decimal
  | .text _ => .text
  | .bytes _ => .bytes
  | .date _ => .date
  | .dateTime _ => .dateTime
  | .time _ => .time
  | .list _ => .list
  | .tuple _ => .tuple
  | .map _ => .map
  | .object => .object

def Kind.name : Kind → String
  | .null => "NoneType"
  | .bool => "bool"
  | .int => "int"
  | .float => "float"
  | .decimal => "Decimal"
  | .text => "str"
  | .bytes => "bytes"
  | .date => "date"
  | .dateTime => "datetime"
  | .time => "time"
  | .list => "list"
  | .tuple => "tuple"
  | .map => "dict"
  | .object => "object"

def Kind.qualifiedName : Kind → String
  | .date => "datetime.date"
  | .dateTime => "datetime.datetime"
  | .time => "datetime.time"
  | .decimal => "decimal.Decimal"
  | k => k.name

/-! ## Parts of a value -/

def entries? : Value → Option (List (Value × Value))
  | .map es => some es
  | _ => none

def items? : Value → Option (List Value)
  | .list xs => some xs
  | .tuple xs => some xs
  | _ => none

def lookup? (name : String) : List (Value × Value) → Option Value
  | [] => none
  | (.text key, v) :: rest => if key = name then some v else lookup? name rest
  | _ :: rest => lookup? name rest

def field? (v : Value) (name : String) : Option Value :=
  v.entries?.bind (lookup? name)

def record (fields : List (String × Value)) : Value :=
  .map (fields.map fun (name, v) => (.text name, v))

@[simp] theorem field?_map (es : List (Value × Value)) (name : String) :
    (Value.map es).field? name = lookup? name es := rfl

theorem lookup?_record_cons (key : String) (v : Value) (rest : List (Value × Value))
    (name : String) :
    lookup? name ((.text key, v) :: rest) = if key = name then some v else lookup? name rest :=
  rfl

/-! ## Keys

Keys are compared by what they stand for: numbers of all kinds, truth values
among them, by their exact values, times whose offsets are known by the moment in
universal time, everything else by kind and contents. -/

/-- The exact value of a number that is no decimal, as numerator and denominator. -/
def ratio? : Value → Option (Int × Nat)
  | .bool b => some (if b then 1 else 0, 1)
  | .int n => some (n, 1)
  | .float x => x.ratio?
  | _ => none

def fewestDigits (c e : Int) : Int × Int :=
  if _h : c = 0 then (0, 0)
  else if _h : c % 10 = 0 then fewestDigits (c / 10) (e + 1)
  else (c, e)
termination_by c.natAbs

/-- The exact value of a finite number, with as few digits as it can have. A power of two
below the point is a power of five with as many places. -/
def digits? : Value → Option (Int × Int)
  | .decimal (.finite negative c e) => some (fewestDigits (if negative then -c else c) e)
  | v => v.ratio?.map fun (p, q) =>
    fewestDigits (p * Nat.pow 5 (Nat.log2 q)) (-(Nat.log2 q : Int))

/-- The sign of an infinite number, `true` for the negative one. -/
def infinity? : Value → Option Bool
  | .float (.infinite negative) => some negative
  | .decimal (.infinite negative) => some negative
  | _ => none

/-- Two numbers are equal; an undefined one equals none. -/
def sameNumber (a b : Value) : Bool :=
  match a.digits?, b.digits? with
  | some x, some y => x == y
  | none, none =>
    match a.infinity?, b.infinity? with
    | some s, some t => s == t
    | _, _ => false
  | _, _ => false

mutual

/-- Two values are one key. -/
def sameKey : Value → Value → Bool
  | .null, .null => true
  | .text a, .text b => a == b
  | .bytes a, .bytes b => a == b
  | .date a, .date b => a == b
  | .dateTime a, .dateTime b => a.sameMoment b
  | .time a, .time b => a.sameMoment b
  | .tuple a, .tuple b => sameKeys a b
  | a, b => sameNumber a b

def sameKeys : List Value → List Value → Bool
  | [], [] => true
  | a :: as, b :: bs => sameKey a b && sameKeys as bs
  | _, _ => false

end

/-- The value under a key among entries. -/
def find? (key : Value) (es : List (Value × Value)) : Option Value :=
  (es.find? fun e => sameKey e.1 key).map Prod.snd

/-- Sets the value of a key: in place where the key occurs, at the end otherwise. -/
def setKey {α : Type} (k : Value) (v : α) : List (Value × α) → List (Value × α)
  | [] => [(k, v)]
  | (k', v') :: rest => if sameKey k' k then (k', v) :: rest else (k', v') :: setKey k v rest

/-- Entries with every key once: at its first place, with its last value. -/
def distinctKeys {α : Type} (es : List (Value × α)) : List (Value × α) :=
  es.foldl (fun acc (k, v) => setKey k v acc) []

@[simp] theorem sameKey_text (a b : String) : sameKey (.text a) (.text b) = (a == b) := by
  simp [sameKey]

end Value

end CallPlan
