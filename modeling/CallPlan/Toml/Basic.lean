import CallPlan.Fields
import CallPlan.Value.Basic

/-!
# TOML data

The data of a TOML document: tables with text keys over texts, numbers, truth
values, dates, times and lists. There is no null. The members of a table keep the
order in which the document first mentions them.
-/

namespace CallPlan

/-- The data of a TOML document or of a part of one. -/
inductive Toml
  | bool (b : Bool)
  | int (n : Int)
  | float (x : Binary64)
  | text (s : String)
  | date (d : Date)
  | dateTime (d : DateTime)
  | time (t : ClockTime)
  | list (items : List Toml)
  | table (members : List (String × Toml))
  deriving Inhabited, BEq, Repr

mutual

def Value.ofToml : Toml → Value
  | .bool b => .bool b
  | .int n => .int n
  | .float x => .float x
  | .text s => .text s
  | .date d => .date d
  | .dateTime d => .dateTime d
  | .time t => .time t
  | .list xs => .list (Value.ofTomlItems xs)
  | .table ms => .map (Value.ofTomlMembers ms)

def Value.ofTomlItems : List Toml → List Value
  | [] => []
  | x :: xs => Value.ofToml x :: Value.ofTomlItems xs

def Value.ofTomlMembers : List (String × Toml) → List (Value × Value)
  | [] => []
  | (name, x) :: ms => (.text name, Value.ofToml x) :: Value.ofTomlMembers ms

end

namespace Toml

abbrev Members := List (String × Toml)

/-- Changes the table that a row of keys leads to. Missing tables on the way are
made; where `intoLists` holds, a list stands for its last item. A key whose value is
no table leads nowhere. -/
def change (intoLists : Bool) (f : Members → Option Members) :
    (path : List String) → Members → Option Members
  | [], t => f t
  | key :: path, t =>
    match Fields.get? key t with
    | none => (change intoLists f path []).map fun sub => Fields.set key (.table sub) t
    | some (.table sub) =>
      (change intoLists f path sub).map fun sub => Fields.set key (.table sub) t
    | some (.list items) =>
      match intoLists, items.getLast? with
      | true, some (.table sub) =>
        (change intoLists f path sub).map fun sub =>
          Fields.set key (.list (items.dropLast ++ [.table sub])) t
      | _, _ => none
    | some _ => none

def addMember (key : String) (x : Toml) (t : Members) : Option Members :=
  match Fields.get? key t with
  | none => some (t ++ [(key, x)])
  | some _ => none

def addTable (key : String) (t : Members) : Option Members :=
  match Fields.get? key t with
  | none => some (t ++ [(key, .list [.table []])])
  | some (.list items) => some (Fields.set key (.list (items ++ [.table []])) t)
  | some _ => none

end Toml

end CallPlan
