import CallPlan.Json.Basic
import CallPlan.Number.Numeral
import CallPlan.Number.Shortest
import CallPlan.Text.Hex

/-!
# JSON text

Writing JSON data. A layout fixes what is free in the format: the separators,
whether characters outside ASCII are written as escapes, and whether every item
stands on a line of its own. Control characters are always escaped, so a text
written without line breaks between items has no line break at all. Data with an
integer that is too long is not written in any layout.
-/

namespace CallPlan.Json

/-- The choices that the format leaves to the writer. -/
structure Layout where
  /-- Between two items or members. -/
  separator : List Char
  /-- Between the name and the value of a member. -/
  colon : List Char
  /-- Only ASCII characters are written. -/
  ascii : Bool
  /-- Each item has its own line, indented by so many blanks for each level. -/
  indent : Option Nat

/-- The densest layout: no blanks, no needless escapes. -/
def Layout.dense : Layout := ⟨[','], [':'], false, none⟩

/-- One line with a blank after each separator. -/
def Layout.line : Layout := ⟨[',', ' '], [':', ' '], false, none⟩

/-- One item a line, two blanks a level, in ASCII. -/
def Layout.page : Layout := ⟨[','], [':', ' '], true, some 2⟩

def unitEscape (n : Nat) : List Char :=
  '\\' :: 'u' :: Text.hexDigits 4 n

/-- One character of a text. Characters past U+FFFF are two code units. -/
def escape (ascii : Bool) (c : Char) : List Char :=
  if c = '"' ∨ c = '\\' then ['\\', c]
  else if c = '\n' then ['\\', 'n']
  else if c = '\r' then ['\\', 'r']
  else if c = '\t' then ['\\', 't']
  else if c = '\x08' then ['\\', 'b']
  else if c = '\x0c' then ['\\', 'f']
  else if c.toNat < 0x20 ∨ (ascii = true ∧ 0x7f ≤ c.toNat) then
    if c.toNat < 0x10000 then unitEscape c.toNat
    else
      let n := c.toNat - 0x10000
      unitEscape (0xd800 + n / 0x400) ++ unitEscape (0xdc00 + n % 0x400)
  else [c]

def quote (ascii : Bool) (s : String) : List Char :=
  '"' :: (s.toList.flatMap (escape ascii) ++ ['"'])

/-- The start of a line at a level, where the layout has lines. -/
def Layout.break (l : Layout) (level : Nat) : List Char :=
  match l.indent with
  | none => []
  | some width => '\n' :: List.replicate (width * level) ' '

/-- Written items between brackets. Nothing stands between the brackets of an empty
row. -/
def Layout.enclose (l : Layout) (level : Nat) (opening closing : Char) :
    List (List Char) → List Char
  | [] => [opening, closing]
  | item :: items =>
    opening :: (l.break (level + 1) ++ item ++
      items.flatMap (fun i => l.separator ++ l.break (level + 1) ++ i) ++
      l.break level ++ [closing])

mutual

def chars (l : Layout) (level : Nat) : Json → List Char
  | .null => ['n', 'u', 'l', 'l']
  | .bool true => ['t', 'r', 'u', 'e']
  | .bool false => ['f', 'a', 'l', 's', 'e']
  | .int n => (toString n).toList
  | .float x => (x.write .json).toList
  | .text s => quote l.ascii s
  | .list xs => l.enclose level '[' ']' (itemChars l (level + 1) xs)
  | .object ms => l.enclose level '\x7b' '\x7d' (memberChars l (level + 1) ms)

def itemChars (l : Layout) (level : Nat) : List Json → List (List Char)
  | [] => []
  | x :: xs => chars l level x :: itemChars l level xs

def memberChars (l : Layout) (level : Nat) : List (String × Json) → List (List Char)
  | [] => []
  | (name, x) :: ms => (quote l.ascii name ++ l.colon ++ chars l level x) :: memberChars l level ms

end

def write (l : Layout) (j : Json) : String :=
  String.ofList (j.chars l 0)

mutual

/-- The data can be written: no integer in it is too long. -/
def isWritable : Json → Bool
  | .int n => Numeral.isWritable n
  | .list xs => itemsWritable xs
  | .object ms => membersWritable ms
  | _ => true

def itemsWritable : List Json → Bool
  | [] => true
  | x :: xs => x.isWritable && itemsWritable xs

def membersWritable : List (String × Json) → Bool
  | [] => true
  | (_, x) :: ms => x.isWritable && membersWritable ms

end

example : write .dense (.object [("a", .list [.int 1, .null]), ("é", .text "\n")]) =
    "\x7b\"a\":[1,null],\"é\":\"\\n\"\x7d" := by decide
example : write .page (.object [("a", .list []), ("b", .list [.bool true])]) =
    "\x7b\n  \"a\": [],\n  \"b\": [\n    true\n  ]\n\x7d" := by decide

end CallPlan.Json
