import CallPlan.Text.Hex
import CallPlan.Text.Printable

/-!
# Quoted text in messages

Messages show a text between single quotes, or between double quotes where it
holds a single quote and no double one. Inside, the backslash and the quote
itself are escaped, line feed, carriage return and tab have letters, and every
other character that is not printable is written by its code point. A byte
string is shown in the same way behind a `b`, with every byte outside printable
ASCII as an escape.
-/

namespace CallPlan.Text.Quoted

def quoteFor (cs : List Char) : Char :=
  if '\'' ∈ cs ∧ '"' ∉ cs then '"' else '\''

/-- A code point as an escape: two, four or eight digits, the fewest that hold it. -/
def codeEscape (n : Nat) : List Char :=
  if n < 0x100 then '\\' :: 'x' :: hexDigits 2 n
  else if n < 0x10000 then '\\' :: 'u' :: hexDigits 4 n
  else '\\' :: 'U' :: hexDigits 8 n

/-- One character of a quoted text, where `shown` says what stands for itself. -/
def escape (shown : Char → Bool) (quote c : Char) : List Char :=
  if c = quote ∨ c = '\\' then ['\\', c]
  else if c = '\n' then ['\\', 'n']
  else if c = '\r' then ['\\', 'r']
  else if c = '\t' then ['\\', 't']
  else if shown c then [c]
  else codeEscape c.toNat

def enclose (shown : Char → Bool) (cs : List Char) : List Char :=
  let quote := quoteFor cs
  quote :: (cs.flatMap (escape shown quote) ++ [quote])

def text (s : String) : String :=
  String.ofList (enclose isPrintable s.toList)

def bytes (bs : List UInt8) : String :=
  String.ofList ('b' :: enclose (fun c => 0x20 ≤ c.toNat && c.toNat < 0x7f)
    (bs.map fun b => Char.ofNat b.toNat))

example : text "it's" = "\"it's\"" := by decide
example : text "a'b\"c" = "'a\\'b\"c'" := by decide
example : text "é\n\u200b" = "'é\\n\\u200b'" := by decide +kernel
example : bytes [97, 0, 0xff] = "b'a\\x00\\xff'" := by decide

end CallPlan.Text.Quoted
