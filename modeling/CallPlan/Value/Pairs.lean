import CallPlan.Value.Basic

/-!
# Mappings from rows of pairs

Where a mapping is wanted, a row of pairs does as well: each pair is a key and its value,
and a key that comes again gets the value of the last pair. A pair is anything with two
parts, and the parts of a text are its characters, those of a byte string its bytes and
those of a mapping its keys.

Keys that could change while they are in use, lists and mappings, are no keys.
-/

namespace CallPlan.Value

/-- Why a value does not stand for a mapping. -/
inductive PairError
  | noRow
  | noPair (index : Nat)
  | partCount (index count : Nat)
  | noKey
  deriving DecidableEq, Repr

def PairError.message : PairError → String
  | .noRow => "the value is no row of pairs"
  | .noPair index => s!"cannot convert dictionary update sequence element #{index} to a sequence"
  | .partCount index count =>
    s!"dictionary update sequence element #{index} has length {count}; 2 is required"
  | .noKey => "the value cannot be a key"

def parts? : Value → Option (List Value)
  | .list xs | .tuple xs => some xs
  | .text s => some (s.toList.map fun c => .text (String.singleton c))
  | .bytes bs => some (bs.map fun b => .int b.toNat)
  | .map es => some (es.map Prod.fst)
  | _ => none

mutual

def isKey : Value → Bool
  | .list _ | .map _ => false
  | .decimal (.undefined _ signalling _) => !signalling
  | .tuple xs => areKeys xs
  | _ => true

def areKeys : List Value → Bool
  | [] => true
  | x :: xs => isKey x && areKeys xs

end

def pair (index : Nat) (v : Value) : Except PairError (Value × Value) :=
  match v.parts? with
  | none => .error (.noPair index)
  | some [k, x] => if k.isKey then .ok (k, x) else .error .noKey
  | some xs => .error (.partCount index xs.length)

/-- The entries that items of a row stand for, from an index on. The first item that is
no pair decides. -/
def pairs : (index : Nat) → List Value → Except PairError (List (Value × Value))
  | _, [] => .ok []
  | n, x :: xs => do
    let e ← pair n x
    let es ← pairs (n + 1) xs
    return e :: es

def toEntries (v : Value) : Except PairError (List (Value × Value)) :=
  match v with
  | .map es => .ok es
  | v =>
    match v.parts? with
    | none => .error .noRow
    | some xs => (pairs 0 xs).map distinctKeys

example : (Value.list [.text "ab", .tuple [.text "a", .int 1]]).toEntries.toOption.map
    (·.map fun e => (e.1.kind, e.2.kind)) = some [(.text, .int)] := by decide
example : (Value.list [.text "a"]).toEntries.toOption.isSome = false := by decide

end CallPlan.Value
