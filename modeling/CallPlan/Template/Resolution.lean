import CallPlan.Template.Lookup

/-!
# Resolving parameters

A text is resolved in two steps: its references are spliced in, and if the outcome
names files, their bytes stand in for it. Parameters are resolved leaf by leaf: texts
are resolved, tuples become lists, and everything else stays as it is. The first leaf
that fails decides, and its failure tells the path to it. A path can only be told where
the keys on it can be written.
-/

namespace CallPlan

namespace Template

/-- The text that a template becomes. A text without markers is its own outcome. -/
def spliceText (scope : Scope) (text : String) : Except Halt String :=
  if hasMarkers text then do spliceAll scope (← (tokenize text).mapError .cause) else .ok text

/-- The value that takes the place of a text: the bytes of the files that it names, if
it names any, or the text itself. -/
def deliver (scope : Scope) (text : String) : Except Halt Value := do
  match ← (Payload.paths? text).mapError .cause with
  | none => return .text text
  | some raws =>
    let base ← scope.base.mapError .fault
    return .bytes (← Payload.load scope.project scope.files base raws)

def resolveText (scope : Scope) (text : String) : Except Halt Value := do
  deliver scope (← spliceText scope text)

mutual

def resolveAt (scope : Scope) (path : String) : Value → Except Halt Value
  | .text s => (resolveText scope s).mapError (Halt.located path)
  | .list xs => (resolveItems scope path 0 xs).map .list
  | .tuple xs => (resolveItems scope path 0 xs).map .list
  | .map es => (resolveEntries scope path es).map .map
  | v => .ok v

def resolveItems (scope : Scope) (path : String) : (index : Nat) → List Value →
    Except Halt (List Value)
  | _, [] => .ok []
  | n, x :: xs => do
    let y ← resolveAt scope (Place.item path n) x
    let ys ← resolveItems scope path (n + 1) xs
    return y :: ys

def resolveEntries (scope : Scope) (path : String) : List (Value × Value) →
    Except Halt (List (Value × Value))
  | [] => .ok []
  | (k, x) :: es => do
    if k.isWritable then
      let y ← resolveAt scope (Place.entry path k) x
      let ys ← resolveEntries scope path es
      return (k, y) :: ys
    else .error (.fault .longInteger)

end

def resolve (scope : Scope) (params : Value) : Except Halt Value :=
  resolveAt scope Place.top params

end Template

end CallPlan
