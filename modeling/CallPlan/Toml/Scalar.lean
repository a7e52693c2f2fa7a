import CallPlan.Number.Numeral
import CallPlan.Text.Hex
import CallPlan.Toml.Basic

/-!
# TOML texts, numbers, dates and times

The parts of a TOML document that hold no other parts. Each reader takes the
characters from where its part begins and gives back those behind its end. Control
characters are refused in texts and comments, other than the tab and, in texts of
several lines, the line feed.
-/

namespace CallPlan.Toml

def isBlank (c : Char) : Bool :=
  c = ' ' || c = '\t'

/-- The text after leading blanks. -/
def skip (cs : List Char) : List Char :=
  cs.dropWhile isBlank

/-- A control character that no text or comment may hold. -/
def isControl (c : Char) : Bool :=
  (c.toNat < 0x20 && c ≠ '\t') || c = '\x7f'

/-- The text behind a comment, where one begins; none if the comment is not allowed. -/
def comment? (cs : List Char) : Option (List Char) :=
  match cs with
  | '#' :: rest =>
    if (rest.takeWhile (· ≠ '\n')).any isControl then none
    else some (rest.dropWhile (· ≠ '\n'))
  | _ => some cs

/-! ## Texts -/

def letterEscape? : Char → Option Char
  | 'b' => some '\x08'
  | 't' => some '\t'
  | 'n' => some '\n'
  | 'f' => some '\x0c'
  | 'r' => some '\r'
  | '"' => some '"'
  | '\\' => some '\\'
  | _ => none

/-- The character of a hexadecimal escape; surrogates and numbers past the last code
point are none. -/
def scalar? (digits : List Char) : Option Char := do
  let n ← Text.ofHexDigits? digits
  if n.isValidChar then some (Char.ofNat n) else none

def basic? : List Char → Option (List Char × List Char)
  | [] => none
  | '"' :: rest => some ([], rest)
  | '\\' :: 'u' :: a :: b :: c :: d :: rest => do
    let x ← scalar? [a, b, c, d]
    let (cs, rest) ← basic? rest
    return (x :: cs, rest)
  | '\\' :: 'U' :: a :: b :: c :: d :: e :: f :: g :: h :: rest => do
    let x ← scalar? [a, b, c, d, e, f, g, h]
    let (cs, rest) ← basic? rest
    return (x :: cs, rest)
  | '\\' :: c :: rest => do
    let x ← letterEscape? c
    let (cs, rest) ← basic? rest
    return (x :: cs, rest)
  | c :: rest =>
    if isControl c ∨ c = '\\' then none
    else (basic? rest).map fun (cs, rest) => (c :: cs, rest)

/-- Where the reader of a text of several lines stands: inside the text, behind a
backslash with blanks that has to end its line, or in the blanks at the start of the
lines after that. -/
inductive Mode
  | inside
  | lineEnd
  | lineStart
  deriving DecidableEq

def lines? : Mode → List Char → Option (List Char × List Char)
  | _, [] => none
  | .lineEnd, c :: rest =>
    if c = '\n' then lines? .lineStart rest
    else if isBlank c then lines? .lineEnd rest
    else none
  | _, '\\' :: 'u' :: a :: b :: c :: d :: rest => do
    let x ← scalar? [a, b, c, d]
    let (cs, rest) ← lines? .inside rest
    return (x :: cs, rest)
  | _, '\\' :: 'U' :: a :: b :: c :: d :: e :: f :: g :: h :: rest => do
    let x ← scalar? [a, b, c, d, e, f, g, h]
    let (cs, rest) ← lines? .inside rest
    return (x :: cs, rest)
  | _, '\\' :: c :: rest =>
    if c = '\n' then lines? .lineStart rest
    else if isBlank c then lines? .lineEnd rest
    else do
      let x ← letterEscape? c
      let (cs, rest) ← lines? .inside rest
      return (x :: cs, rest)
  | _, '"' :: '"' :: '"' :: rest => some ([], rest)
  | mode, c :: rest =>
    if mode = .lineStart ∧ (isBlank c ∨ c = '\n') then lines? .lineStart rest
    else if (isControl c ∧ c ≠ '\n') ∨ c = '\\' then none
    else (lines? .inside rest).map fun (cs, rest) => (c :: cs, rest)

def literalLines? : List Char → Option (List Char × List Char)
  | [] => none
  | '\'' :: '\'' :: '\'' :: rest => some ([], rest)
  | c :: rest =>
    if isControl c ∧ c ≠ '\n' then none
    else (literalLines? rest).map fun (cs, rest) => (c :: cs, rest)

/-- The rest of a literal text of one line. -/
def literal? : List Char → Option (List Char × List Char)
  | [] => none
  | '\'' :: rest => some ([], rest)
  | c :: rest =>
    if isControl c then none
    else (literal? rest).map fun (cs, rest) => (c :: cs, rest)

/-- A line feed right behind the opening quotes does not belong to the text. -/
def dropLineFeed : List Char → List Char
  | '\n' :: rest => rest
  | cs => cs

/-- Up to two quotes behind the closing ones belong to the text. -/
def closeWith (quote : Char) : List Char × List Char → List Char × List Char
  | (cs, a :: b :: rest) =>
    if a = quote ∧ b = quote then (cs ++ [quote, quote], rest)
    else if a = quote then (cs ++ [quote], b :: rest)
    else (cs, a :: b :: rest)
  | (cs, [a]) => if a = quote then (cs ++ [quote], []) else (cs, [a])
  | (cs, []) => (cs, [])

def text? (cs : List Char) : Option (String × List Char) :=
  let read := match cs with
    | '"' :: '"' :: '"' :: rest => (lines? .inside (dropLineFeed rest)).map (closeWith '"')
    | '"' :: rest => basic? rest
    | '\'' :: '\'' :: '\'' :: rest =>
      (literalLines? (dropLineFeed rest)).map (closeWith '\'')
    | '\'' :: rest => literal? rest
    | _ => none
  read.map fun (cs, rest) => (String.ofList cs, rest)

/-! ## Keys -/

/-- A character of a key without quotes. -/
def isBare (c : Char) : Bool :=
  c.isAlphanum || c = '-' || c = '_'

def keyPart? (cs : List Char) : Option (String × List Char) :=
  match cs with
  | '"' :: rest => (basic? rest).map fun (cs, rest) => (String.ofList cs, rest)
  | '\'' :: rest => (literal? rest).map fun (cs, rest) => (String.ofList cs, rest)
  | _ =>
    match cs.takeWhile isBare with
    | [] => none
    | part => some (String.ofList part, cs.dropWhile isBare)

/-- A key: parts with points between them, and blanks around the points. -/
def key? : (steps : Nat) → List Char → Option (List String × List Char)
  | 0, _ => none
  | steps + 1, cs => do
    let (part, rest) ← keyPart? cs
    match skip rest with
    | '.' :: rest =>
      let (parts, rest) ← key? steps (skip rest)
      return (part :: parts, rest)
    | rest => return ([part], rest)

/-! ## Numbers -/

/-- Digits with single underscores between them, without these. -/
def grouped (isDigit : Char → Bool) : List Char → List Char × List Char
  | '_' :: c :: rest =>
    if isDigit c then
      let (ds, rest) := grouped isDigit rest
      (c :: ds, rest)
    else ([], '_' :: c :: rest)
  | c :: rest =>
    if isDigit c then
      let (ds, rest) := grouped isDigit rest
      (c :: ds, rest)
    else ([], c :: rest)
  | [] => ([], [])

/-- Digits that begin with one. -/
def run (isDigit : Char → Bool) (cs : List Char) : List Char × List Char :=
  match cs with
  | '_' :: _ => ([], cs)
  | _ => grouped isDigit cs

def natInBase (base : Nat) (digits : List Char) : Nat :=
  digits.foldl (fun n c => n * base + (Text.hexValue? c).getD 0) 0

def based? (base : Nat) (isDigit : Char → Bool) (cs : List Char) : Option (Toml × List Char) :=
  match run isDigit cs with
  | ([], _) => none
  | (ds, rest) => some (.int (natInBase base ds), rest)

/-- The whole part of a decimal number: zero, or digits that do not begin with it. -/
def whole? (cs : List Char) : Option (List Char × List Char) :=
  match cs with
  | '0' :: rest => some (['0'], rest)
  | _ =>
    match run Char.isDigit cs with
    | ([], _) => none
    | r => some r

def fraction (cs : List Char) : List Char × List Char :=
  match cs with
  | '.' :: rest =>
    match run Char.isDigit rest with
    | ([], _) => ([], cs)
    | (ds, rest) => ('.' :: ds, rest)
  | _ => ([], cs)

def power (cs : List Char) : List Char × List Char :=
  match cs with
  | e :: rest =>
    if e = 'e' ∨ e = 'E' then
      let (negative, digits) := Numeral.sign rest
      match run Char.isDigit digits with
      | ([], _) => ([], cs)
      | (ds, rest) => ('e' :: (if negative then '-' :: ds else ds), rest)
    else ([], cs)
  | [] => ([], [])

/-- A decimal number: an integer if it has neither fraction nor power. -/
def decimal? (cs : List Char) : Option (Toml × List Char) := do
  let (negative, unsigned) := Numeral.sign cs
  let (whole, rest) ← whole? unsigned
  let (part, rest) := fraction rest
  let (exp, rest) := power rest
  if part.isEmpty && exp.isEmpty then
    let n : Int := Numeral.natOfDigits whole
    return (.int (if negative then -n else n), rest)
  else
    let n ← Numeral.ofChars? (whole ++ part ++ exp)
    return (.float (Numeral.toBinary64 { n with negative := negative }), rest)

/-- How many decimal digits the number at the head of a document has in front of a point, if
these are too many for an integer. There is no such limit in another base. -/
def longDigits? (cs : List Char) : Option Nat := do
  let (digits, _) ← whole? (Numeral.sign cs).2
  if Numeral.maxDigits < digits.length then some digits.length else none

def special? (cs : List Char) : Option (Toml × List Char) :=
  match Numeral.sign cs with
  | (negative, 'i' :: 'n' :: 'f' :: rest) => some (.float (.infinite negative), rest)
  | (_, 'n' :: 'a' :: 'n' :: rest) => some (.float .nan, rest)
  | _ => none

def number? (cs : List Char) : Option (Toml × List Char) :=
  let other := match cs with
    | '0' :: 'x' :: rest => based? 16 (fun c => (Text.hexValue? c).isSome) rest
    | '0' :: 'o' :: rest => based? 8 (fun c => '0' ≤ c && c ≤ '7') rest
    | '0' :: 'b' :: rest => based? 2 (fun c => c = '0' || c = '1') rest
    | _ => none
  (other.or (decimal? cs)).or (special? cs)

/-! ## Dates and times -/

/-- A time of day behind a date, and an offset behind the time. -/
def timeOfDate? (cs : List Char) : Option (ClockTime × List Char) := do
  let (t, rest) ← Calendar.clock? cs
  if t.isValid then
    match Calendar.offset? rest with
    | some (o, behind) => return ({ t with offset := o }, behind)
    | none => return (t, rest)
  else none

/-- A date, or a date and a time, at the head of a document. -/
def dated? (cs : List Char) : Option (Toml × List Char) := do
  let (d, rest) ← Calendar.date? cs
  if d.isValid then
    match rest with
    | c :: behind =>
      if c = 'T' ∨ c = 't' ∨ c = ' ' then
        match timeOfDate? behind with
        | some (t, rest) => return (.dateTime ⟨d, t⟩, rest)
        | none => return (.date d, rest)
      else return (.date d, rest)
    | [] => return (.date d, rest)
  else none

def timed? (cs : List Char) : Option (Toml × List Char) := do
  let (t, rest) ← Calendar.clock? cs
  if t.isValid then return (.time t, rest) else none

def bool? : List Char → Option (Toml × List Char)
  | 't' :: 'r' :: 'u' :: 'e' :: rest => some (.bool true, rest)
  | 'f' :: 'a' :: 'l' :: 's' :: 'e' :: rest => some (.bool false, rest)
  | _ => none

/-- A part that holds no other parts, at the head of a document. Dates and times begin
like numbers and so come first. -/
def scalarAt? (cs : List Char) : Option (Toml × List Char) :=
  ((text? cs).map fun (s, rest) => (.text s, rest))
    |>.or (bool? cs) |>.or (dated? cs) |>.or (timed? cs) |>.or (number? cs)

end CallPlan.Toml
