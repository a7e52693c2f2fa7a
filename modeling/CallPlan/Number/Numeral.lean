import CallPlan.Number.Binary64
import CallPlan.Text.Blank
import CallPlan.Text.Digit

/-!
# Numbers written in text

A setting may hold a number as text. Such text may be padded with blanks, may
group digits with single underscores between two digits, and may use the decimal
digits of any script. What is left after that is an ASCII numeral: for a whole
number a sign and digits, for a real one also a point and a power of ten, or a
word for an infinite or undefined number.

Integers are read from and written as decimal digits only up to a length, and any
error of a longer one is an error of its own.
-/

namespace CallPlan

/-- The exact value that a decimal numeral writes: `digits * 10 ^ exponent` with a
sign, which a zero keeps. -/
structure Numeral where
  negative : Bool
  digits : Nat
  exponent : Int
  deriving DecidableEq, Repr

/-- Why a document cannot be read: it has another form, or it writes an integer with too
many digits. -/
inductive ReadError
  | malformed
  | longNumeral (digits : Nat)
  deriving DecidableEq, Repr

/-- What is read of a part of a document, where the document has this part. -/
def ReadError.require {α : Type} : Option α → Except ReadError α
  | some a => .ok a
  | none => .error .malformed

@[simp] theorem ReadError.require_some {α : Type} (a : α) : require (some a) = .ok a := rfl

@[simp] theorem ReadError.require_none {α : Type} : require (none : Option α) = .error .malformed :=
  rfl

namespace Numeral

/-! ## Length -/

/-- The most decimal digits that an integer is read from or written as. -/
def maxDigits : Nat := 4300

def isWritable (n : Int) : Bool :=
  (Nat.toDigits 10 n.natAbs).length ≤ maxDigits

/-- What is said of an integer that is too long, with its digits where they are read. -/
def tooLong (digits : Option Nat) : String :=
  "Exceeds the limit (" ++ toString maxDigits ++ " digits) for integer string conversion" ++
    (digits.elim "" fun n => s!": value has {n} digits") ++
    "; use sys.set_int_max_str_digits() to increase the limit"

/-! ## Reading -/

def natOfDigits (cs : List Char) : Nat :=
  cs.foldl (fun n c => n * 10 + (c.toNat - 48)) 0

/-- The sign in front of a numeral, and what follows it. -/
def sign : List Char → Bool × List Char
  | '-' :: rest => (true, rest)
  | '+' :: rest => (false, rest)
  | cs => (false, cs)

/-- The digits behind a point, if there is one, and what follows them. -/
def fraction : List Char → List Char × List Char
  | '.' :: rest => (rest.takeWhile Char.isDigit, rest.dropWhile Char.isDigit)
  | cs => ([], cs)

/-- The power of ten that ends a numeral; none stands for the zeroth. -/
def power? : List Char → Option Int
  | [] => some 0
  | e :: rest =>
    let (negative, digits) := sign rest
    if (e = 'e' ∨ e = 'E') ∧ digits ≠ [] ∧ digits.all Char.isDigit then
      some (if negative then -(natOfDigits digits : Int) else natOfDigits digits)
    else none

/-- The value of an ASCII numeral: a sign, digits with at most one point among
them, and a power of ten. -/
def ofChars? (cs : List Char) : Option Numeral :=
  let (negative, cs) := sign cs
  let whole := cs.takeWhile Char.isDigit
  let (part, rest) := fraction (cs.dropWhile Char.isDigit)
  if whole.isEmpty && part.isEmpty then none
  else (power? rest).map fun p =>
    ⟨negative, natOfDigits (whole ++ part), p - part.length⟩

def toBinary64 (n : Numeral) : Binary64 :=
  .ofDecimal n.negative n.digits n.exponent

/-- Blanks that may pad a number: all but the four ASCII separators. -/
def isPadding (c : Char) : Bool :=
  Text.isBlank c && !(0x1c ≤ c.toNat && c.toNat ≤ 0x1f)

def unpad (cs : List Char) : List Char :=
  ((cs.dropWhile isPadding).reverse.dropWhile isPadding).reverse

/-- A digit of any script becomes the ASCII digit of its value. -/
def plainDigit (c : Char) : Char :=
  match Text.digit? c with
  | some d => Text.digitChar d
  | none => c

/-- The characters without underscores, which may stand between two digits only.
`digit` tells that the character before is a digit. -/
def ungroup (digit : Bool) : List Char → Option (List Char)
  | [] => some []
  | '_' :: c :: rest =>
    if digit && c.isDigit then (ungroup true rest).map (c :: ·) else none
  | ['_'] => none
  | c :: rest => (ungroup c.isDigit rest).map (c :: ·)

/-- The ASCII numeral inside a padded and grouped one. -/
def bare? (s : String) : Option (List Char) :=
  ungroup false ((unpad s.toList).map plainDigit)

def word? (cs : List Char) : Option Binary64 :=
  let (negative, cs) := sign cs
  let word := cs.map Char.toLower
  if word = "inf".toList ∨ word = "infinity".toList then some (.infinite negative)
  else if word = "nan".toList then some .nan
  else none

def binary64? (s : String) : Option Binary64 := do
  let cs ← bare? s
  (word? cs).or ((ofChars? cs).map toBinary64)

def int? (s : String) : Option Int := do
  let (negative, digits) := sign (← bare? s)
  if digits ≠ [] ∧ digits.all Char.isDigit ∧ digits.length ≤ maxDigits then
    some (if negative then -(natOfDigits digits : Int) else natOfDigits digits)
  else none

example : int? " 1_000 " = some 1000 := by decide
example : int? "٣" = some 3 := by decide
example : int? "1__0" = none := by decide
example : binary64? "+Infinity" = some (.infinite false) := by decide
example : binary64? "5." = some (.ofDecimal false 5 0) := by decide
example : binary64? "1e" = none := by decide

end Numeral

end CallPlan
