import CallPlan.Fields
import CallPlan.Json.Basic
import CallPlan.Number.Numeral
import CallPlan.Text.Hex

/-!
# Reading JSON text

The grammar of JSON with three words more, for the numbers that no digits write.
A number without point and exponent is an integer. Of members with one name the
last value counts, at the place of the first. Control characters in texts and a
byte-order mark are refused, and so is a lone surrogate, which no text here can hold.
An integer with too many digits ends the reading where it stands.

Each step hands on the text that is left. A step reads at least one character, so
the number of characters bounds the number of steps (`ofChars`).
-/

namespace CallPlan.Json

def isBlank (c : Char) : Bool :=
  c = ' ' || c = '\n' || c = '\r' || c = '\t'

/-- The text after leading blanks. -/
def skip (cs : List Char) : List Char :=
  cs.dropWhile isBlank

def unit? (a b c d : Char) : Option Nat :=
  Text.ofHexDigits? [a, b, c, d]

def letterEscape? : Char → Option Char
  | '"' => some '"'
  | '\\' => some '\\'
  | '/' => some '/'
  | 'b' => some '\x08'
  | 'f' => some '\x0c'
  | 'n' => some '\n'
  | 'r' => some '\r'
  | 't' => some '\t'
  | _ => none

/-- The rest of a text whose opening quote has been read, up to its closing quote.
Two escaped code units that make a surrogate pair are one character. -/
def string? : List Char → Option (List Char × List Char)
  | '"' :: rest => some ([], rest)
  | '\\' :: 'u' :: a :: b :: c :: d :: rest => do
    let n ← unit? a b c d
    if 0xd800 ≤ n ∧ n < 0xdc00 then
      match rest with
      | '\\' :: 'u' :: e :: f :: g :: h :: rest => do
        let low ← unit? e f g h
        if 0xdc00 ≤ low ∧ low < 0xe000 then
          let (cs, rest) ← string? rest
          return (Char.ofNat (0x10000 + (n - 0xd800) * 0x400 + (low - 0xdc00)) :: cs, rest)
        else none
      | _ => none
    else if 0xdc00 ≤ n ∧ n < 0xe000 then none
    else
      let (cs, rest) ← string? rest
      return (Char.ofNat n :: cs, rest)
  | '\\' :: c :: rest => do
    let e ← letterEscape? c
    let (cs, rest) ← string? rest
    return (e :: cs, rest)
  | c :: rest => do
    if c.toNat < 0x20 ∨ c = '\\' then none
    else
      let (cs, rest) ← string? rest
      return (c :: cs, rest)
  | [] => none

def digits (cs : List Char) : List Char × List Char :=
  (cs.takeWhile Char.isDigit, cs.dropWhile Char.isDigit)

/-- The whole part of a number: zero, or digits that do not begin with zero. -/
def whole? : List Char → Option (List Char × List Char)
  | '0' :: rest => some (['0'], rest)
  | cs =>
    match digits cs with
    | ([], _) => none
    | r => some r

/-- The fraction of a number with its point, where digits follow the point. -/
def fraction (cs : List Char) : List Char × List Char :=
  match cs with
  | '.' :: rest =>
    match digits rest with
    | ([], _) => ([], cs)
    | (ds, rest) => ('.' :: ds, rest)
  | _ => ([], cs)

/-- The power of ten of a number with its letter, where digits follow. -/
def power (cs : List Char) : List Char × List Char :=
  let (mark, rest) := match cs with
    | 'e' :: '-' :: rest | 'E' :: '-' :: rest => (['e', '-'], rest)
    | 'e' :: '+' :: rest | 'E' :: '+' :: rest => (['e'], rest)
    | 'e' :: rest | 'E' :: rest => (['e'], rest)
    | _ => ([], cs)
  match mark, digits rest with
  | [], _ => ([], cs)
  | _, ([], _) => ([], cs)
  | mark, (ds, rest) => (mark ++ ds, rest)

def number (cs : List Char) : Except ReadError (Json × List Char) := do
  let (negative, unsigned) := match cs with
    | '-' :: rest => (true, rest)
    | _ => (false, cs)
  let (whole, rest) ← ReadError.require (whole? unsigned)
  let (part, rest) := fraction rest
  let (exp, rest) := power rest
  if part.isEmpty && exp.isEmpty then
    let n : Int := Numeral.natOfDigits whole
    if whole.length ≤ Numeral.maxDigits then return (.int (if negative then -n else n), rest)
    else .error (.longNumeral whole.length)
  else
    let n ← ReadError.require (Numeral.ofChars? (whole ++ part ++ exp))
    return (.float (Numeral.toBinary64 { n with negative := negative }), rest)

def word? : List Char → Option (Json × List Char)
  | 'n' :: 'u' :: 'l' :: 'l' :: rest => some (.null, rest)
  | 't' :: 'r' :: 'u' :: 'e' :: rest => some (.bool true, rest)
  | 'f' :: 'a' :: 'l' :: 's' :: 'e' :: rest => some (.bool false, rest)
  | 'N' :: 'a' :: 'N' :: rest => some (.float .nan, rest)
  | 'I' :: 'n' :: 'f' :: 'i' :: 'n' :: 'i' :: 't' :: 'y' :: rest =>
    some (.float (.infinite false), rest)
  | '-' :: 'I' :: 'n' :: 'f' :: 'i' :: 'n' :: 'i' :: 't' :: 'y' :: rest =>
    some (.float (.infinite true), rest)
  | _ => none

def name? (cs : List Char) : Option (String × List Char) :=
  match cs with
  | '"' :: rest =>
    match string? rest with
    | some (name, rest) =>
      match skip rest with
      | ':' :: rest => some (String.ofList name, skip rest)
      | _ => none
    | none => none
  | _ => none

mutual

/-- The data at the head of a text, in at most `steps` steps. -/
def value : (steps : Nat) → List Char → Except ReadError (Json × List Char)
  | 0, _ => .error .malformed
  | _ + 1, '"' :: rest =>
    (ReadError.require (string? rest)).map fun (cs, rest) => (.text (String.ofList cs), rest)
  | steps + 1, '[' :: rest =>
    match skip rest with
    | ']' :: rest => .ok (.list [], rest)
    | cs => (items steps cs).map fun (xs, rest) => (.list xs, rest)
  | steps + 1, '\x7b' :: rest =>
    match skip rest with
    | '\x7d' :: rest => .ok (.object [], rest)
    | cs => (members steps cs).map fun (ms, rest) => (.object (Fields.distinct ms), rest)
  | _ + 1, cs =>
    match word? cs with
    | some read => .ok read
    | none => number cs

def items : (steps : Nat) → List Char → Except ReadError (List Json × List Char)
  | 0, _ => .error .malformed
  | steps + 1, cs => do
    let (x, rest) ← value steps cs
    match skip rest with
    | ',' :: rest =>
      let (xs, rest) ← items steps (skip rest)
      return (x :: xs, rest)
    | ']' :: rest => return ([x], rest)
    | _ => .error .malformed

def members : (steps : Nat) → List Char → Except ReadError (List (String × Json) × List Char)
  | 0, _ => .error .malformed
  | steps + 1, cs => do
    let (name, rest) ← ReadError.require (name? cs)
    let (x, rest) ← value steps rest
    match skip rest with
    | ',' :: rest =>
      let (ms, rest) ← members steps (skip rest)
      return ((name, x) :: ms, rest)
    | '\x7d' :: rest => return ([(name, x)], rest)
    | _ => .error .malformed

end

def ofChars (cs : List Char) : Except ReadError Json := do
  let (j, rest) ← value (cs.length + 1) (skip cs)
  if (skip rest).isEmpty then return j else .error .malformed

def ofText (s : String) : Except ReadError Json :=
  ofChars s.toList

end CallPlan.Json
