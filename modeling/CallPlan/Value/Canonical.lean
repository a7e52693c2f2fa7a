import CallPlan.Fields
import CallPlan.Json.Writer
import CallPlan.Sorting
import CallPlan.Text.Base64
import CallPlan.Text.Utf8
import CallPlan.Value.Literal

/-!
# Canonical text

Results are compared with expectations, and spliced into texts, by their
canonical JSON text: members sorted by name, no blanks, one form for each number.
The text is that of the value's normal form, which is JSON data: a decimal or
binary number that is whole becomes an integer, a byte string becomes the text it
encodes (or its base64 text), a date its written form, a tuple a list. Names of
members are the plain forms of the keys; where two keys have one plain form, the
last one counts.

A value has no normal form where it holds an undefined or infinite number, a time
of day without a date, an object, or a key that cannot be written, and a normal form
has no text where it holds an integer that is too long. Texts are Unicode text: what
could not be encoded, such as half of a surrogate pair, is in none of them.
-/

namespace CallPlan.Canonical

/-- Why a value has no canonical text. -/
inductive Error
  | notFinite
  | unsupported (kind : Value.Kind)
  | longInteger
  deriving DecidableEq, Repr

def Error.message : Error → String
  | .notFinite => "NaN and Infinity are not permitted in JCS payloads"
  | .unsupported kind =>
    "Unsupported type for JCS canonicalisation: <class '" ++ kind.qualifiedName ++ "'>"
  | .longInteger => Numeral.tooLong none

/-- The normal form of a binary number: an integer where its shortest decimal is
whole. -/
def number : Binary64 → Except Error Json
  | .finite negative b f =>
    if Binary64.mantissa b f = 0 then .ok (.int 0)
    else
      let s := Binary64.shortest b f
      if 0 ≤ s.exponent then
        let n : Int := s.digits * Nat.pow 10 s.exponent.toNat
        .ok (.int (if negative then -n else n))
      else .ok (.float (.finite negative b f))
  | _ => .error .notFinite

/-- The normal form of a decimal: exact where it is whole, otherwise that of the
nearest binary number. -/
def decimal (d : Decimal) : Except Error Json :=
  if d.isFinite then
    match d.toInt? with
    | some n => .ok (.int n)
    | none => number d.toBinary64
  else .error .notFinite

def binaryText (bs : List UInt8) : String :=
  match Text.Utf8.decodeText bs with
  | .ok s => s
  | .error _ => Text.Base64.encodeText bs

/-- The values of members, or the failure of the first that has none. -/
def collect : List (String × Except Error Json) → Except Error (List (String × Json))
  | [] => .ok []
  | (name, r) :: ms => do
    let j ← r
    let rest ← collect ms
    return (name, j) :: rest

/-- Members in the order of their names, the first failure among their values in
that order, and of equal names the last value. -/
def members (ms : List (String × Except Error Json)) : Except Error Json :=
  (collect (Sorting.sort (fun a b => Sorting.textLe a.1 b.1) ms)).map fun ok =>
    .object (Fields.distinct ok)

mutual

def normal : Value → Except Error Json
  | .null => .ok .null
  | .bool b => .ok (.bool b)
  | .int n => .ok (.int n)
  | .float x => number x
  | .decimal d => decimal d
  | .text s => .ok (.text s)
  | .bytes bs => .ok (.text (binaryText bs))
  | .date d => .ok (.text d.iso)
  | .dateTime d => .ok (.text d.iso)
  | .time _ => .error (.unsupported .time)
  | .list xs => (normalItems xs).map .list
  | .tuple xs => (normalItems xs).map .list
  | .map es =>
    if es.all (·.1.isWritable) then members (normalEntries es) else .error .longInteger
  | .object => .error (.unsupported .object)

/-- The normal forms of items, or the failure of the first that has none. -/
def normalItems : List Value → Except Error (List Json)
  | [] => .ok []
  | x :: xs => do
    let j ← normal x
    let js ← normalItems xs
    return j :: js

/-- The normal forms of the values of entries under the plain forms of their keys. -/
def normalEntries : List (Value × Value) → List (String × Except Error Json)
  | [] => []
  | (k, v) :: es => (k.plain, normal v) :: normalEntries es

end

def text (v : Value) : Except Error String := do
  let j ← normal v
  if j.isWritable then return j.write .dense else .error .longInteger

example : (text (.float (.ofDecimal false 1 23))).toOption = some "100000000000000000000000" := by
  decide
example : (text (.decimal (.finite false 150 (-2)))).toOption = some "1.5" := by decide
example : (text (.map [(.int 2, .null), (.text "10", .bytes [0xff])])).toOption =
    some "\x7b\"10\":\"/w==\",\"2\":null\x7d" := by decide +kernel

end CallPlan.Canonical
