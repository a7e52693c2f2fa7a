import CallPlan.Number.Numeral
import CallPlan.Number.Shortest
import CallPlan.Text.Quoted
import CallPlan.Value.Basic

/-!
# How messages show values

A value has two forms in messages. Its literal is unambiguous: texts are quoted,
lists, tuples and mappings show their parts as literals. Its plain form is the
one that names and paths are built from: a text as it is, a date or decimal as it
is written, everything else as its literal. A value with an integer that is too long
has neither form.
-/

namespace CallPlan.Value

/-- The literal of a distance from universal time, which is broken up into a day less, if
it is negative, and the seconds and microseconds that are left. -/
def offsetLiteral (micros : Int) : String :=
  let left := (if micros < 0 then micros + ClockTime.dayLength else micros).toNat
  let part (name : String) (n : Int) := if n = 0 then [] else [s!"{name}={n}"]
  if micros = 0 then "datetime.timezone.utc"
  else "datetime.timezone(datetime.timedelta(" ++ ", ".intercalate (
    part "days" (if micros < 0 then -1 else 0) ++
    part "seconds" (left / 1000000 : Nat) ++
    part "microseconds" (left % 1000000 : Nat)) ++ "))"

/-- The arguments that a literal gives for a time of day: trailing zeros below the
minute are left out. -/
def clockArguments (t : ClockTime) : List String :=
  let small :=
    if t.micro ≠ 0 then [toString t.second, toString t.micro]
    else if t.second ≠ 0 then [toString t.second] else []
  let offset := match t.offset with
    | none => []
    | some o => ["tzinfo=" ++ offsetLiteral o]
  [toString t.hour, toString t.minute] ++ small ++ offset

def dateArguments (d : Date) : List String :=
  [toString d.year, toString d.month, toString d.day]

def callLiteral (name : String) (arguments : List String) : String :=
  name ++ "(" ++ ", ".intercalate arguments ++ ")"

mutual

def literal : Value → String
  | .null => "None"
  | .bool b => if b then "True" else "False"
  | .int n => toString n
  | .float x => x.text
  | .decimal d => "Decimal('" ++ d.text ++ "')"
  | .text s => Text.Quoted.text s
  | .bytes bs => Text.Quoted.bytes bs
  | .date d => callLiteral "datetime.date" (dateArguments d)
  | .dateTime d => callLiteral "datetime.datetime" (dateArguments d.date ++ clockArguments d.time)
  | .time t => callLiteral "datetime.time" (clockArguments t)
  | .list xs => "[" ++ ", ".intercalate (itemLiterals xs) ++ "]"
  | .tuple [x] => "(" ++ x.literal ++ ",)"
  | .tuple xs => "(" ++ ", ".intercalate (itemLiterals xs) ++ ")"
  | .map es => "\x7b" ++ ", ".intercalate (entryLiterals es) ++ "\x7d"
  | .object => "<object object>"

def itemLiterals : List Value → List String
  | [] => []
  | x :: xs => x.literal :: itemLiterals xs

def entryLiterals : List (Value × Value) → List String
  | [] => []
  | (k, v) :: es => (k.literal ++ ": " ++ v.literal) :: entryLiterals es

end

def plain : Value → String
  | .text s => s
  | .decimal d => d.text
  | .date d => d.iso
  | .dateTime d => d.spaced
  | .time t => t.iso
  | v => v.literal

@[simp] theorem plain_text (s : String) : (Value.text s).plain = s := rfl

mutual

/-- The value can be written: no integer in it is too long. -/
def isWritable : Value → Bool
  | .int n => Numeral.isWritable n
  | .list xs => itemsWritable xs
  | .tuple xs => itemsWritable xs
  | .map es => entriesWritable es
  | _ => true

def itemsWritable : List Value → Bool
  | [] => true
  | x :: xs => x.isWritable && itemsWritable xs

def entriesWritable : List (Value × Value) → Bool
  | [] => true
  | (k, v) :: es => k.isWritable && v.isWritable && entriesWritable es

end

@[simp] theorem isWritable_text (s : String) : (Value.text s).isWritable = true := by
  simp [isWritable]

example : (Value.list [.int 1, .text "x"]).literal = "[1, 'x']" := by decide
example : (Value.tuple [.int 1]).literal = "(1,)" := by decide
example : (Value.date ⟨2015, 3, 31⟩).literal = "datetime.date(2015, 3, 31)" := by decide

end CallPlan.Value
