import CallPlan.Json.Writer
import CallPlan.Sorting
import CallPlan.Value.Literal

/-!
# Exporting values

Any value as JSON data, for log lines and reports: what JSON cannot express is written
as a text, tuples become lists, and members stand in the order of their keys. Keys may
be texts or numbers, truth values among these, but not both in one mapping; a null may
be the only key of a mapping. Other keys cannot be exported, and neither can an integer
that is too long. Of several such parts the first one in the order of the export counts.
Undefined numbers are in no order with the others and stand where sorting leaves them.
-/

namespace CallPlan.Json

/-- Why a value cannot be exported. -/
inductive Refusal
  /-- The keys of a mapping cannot be sorted or written. -/
  | keys
  | longInteger
  deriving DecidableEq, Repr

/-- The name of a member with a key. -/
def keyName : Value → Except Refusal String
  | .null => .ok "null"
  | .bool b => .ok (if b then "true" else "false")
  | .int n => if Numeral.isWritable n then .ok (toString n) else .error .longInteger
  | .float x => .ok (x.write .json)
  | .text s => .ok s
  | _ => .error .keys

def isTextKey (k : Value) : Bool :=
  k.kind = .text

def isNumberKey (k : Value) : Bool :=
  k.kind ∈ [.bool, .int, .float]

def textKeyLe (a b : Value) : Bool :=
  Sorting.textLe a.plain b.plain

/-- A number key is less than another. An undefined one is neither less nor greater. -/
def numberKeyLt (a b : Value) : Bool :=
  match a.ratio?, b.ratio? with
  | some (p, q), some (r, s) => p * s < r * q
  | some _, none => b.infinity? = some false
  | none, some _ => a.infinity? = some true
  | none, none => a.infinity? = some true && b.infinity? = some false

/-- Entries in the order of their keys, where the keys have one. -/
def inKeyOrder (es : List (Value × α)) : Except Refusal (List (Value × α)) :=
  if es.all (isTextKey ·.1) then .ok (Sorting.sort (fun a b => textKeyLe a.1 b.1) es)
  else if es.all (isNumberKey ·.1) then
    .ok (Sorting.sortByRuns (fun a b => numberKeyLt a.1 b.1) es)
  else if es.length ≤ 1 then .ok es
  else .error .keys

/-- The members that entries become, or the refusal of the first that becomes none. -/
def named : List (Value × Except Refusal Json) → Except Refusal (List (String × Json))
  | [] => .ok []
  | (k, x) :: es => do
    let name ← keyName k
    let j ← x
    let rest ← named es
    return (name, j) :: rest

mutual

def ofValue : Value → Except Refusal Json
  | .null => .ok .null
  | .bool b => .ok (.bool b)
  | .int n => if Numeral.isWritable n then .ok (.int n) else .error .longInteger
  | .float x => .ok (.float x)
  | .text s => .ok (.text s)
  | .list xs => (ofValues xs).map .list
  | .tuple xs => (ofValues xs).map .list
  | .map es => do return .object (← named (← inKeyOrder (ofEntries es)))
  | v => .ok (.text v.plain)

def ofValues : List Value → Except Refusal (List Json)
  | [] => .ok []
  | x :: xs => do
    let j ← ofValue x
    let js ← ofValues xs
    return j :: js

/-- Entries with the data that their values become. -/
def ofEntries : List (Value × Value) → List (Value × Except Refusal Json)
  | [] => []
  | (k, x) :: es => (k, ofValue x) :: ofEntries es

end

example : ((ofValue (.map [(.text "b", .int 1), (.text "a", .date ⟨2024, 5, 1⟩)])).map
    (write .line)).toOption = some "\x7b\"a\": \"2024-05-01\", \"b\": 1\x7d" := by decide
example : (ofValue (.map [(.text "b", .int 1), (.int 2, .null)])).toOption = none := by decide

end CallPlan.Json
