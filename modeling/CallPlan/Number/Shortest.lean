import CallPlan.Number.Binary64

/-!
# The shortest decimal of a binary number

A finite number is written with the fewest decimal digits that read back as the
same number and, of those decimals, by the nearest one; of two equally near the
one whose last digit is even.

The decimals that read back form an interval around the number, its ends
included exactly when the mantissa is even. If a grid of decimals has a point in
the interval, one of the two grid points next to the number is in it, so for each
digit count only these two are tried, in exact integer arithmetic.
-/

namespace CallPlan.Binary64

/-- A decimal: `digits * 10 ^ exponent`. -/
structure Shortest where
  digits : Nat
  exponent : Int
  deriving DecidableEq, Repr

/-- A positive number with its rounding interval, all three over one denominator. -/
structure Interval where
  low : Nat
  value : Nat
  high : Nat
  den : Nat
  closed : Bool

/-- The interval of decimals that read back as the number of these fields. Below
a power of two the next number is only half as far away. -/
def interval (biased : Fin 2047) (fraction : Fin 4503599627370496) : Interval :=
  let m := mantissa biased fraction
  let q := scale biased - 2
  let up := Nat.pow 2 q.toNat
  let below := if fraction.val = 0 ∧ biased.val > 1 then 1 else 2
  { low := (4 * m - below) * up
    value := 4 * m * up
    high := (4 * m + 2) * up
    den := Nat.pow 2 (-q).toNat
    closed := m % 2 == 0 }

def Interval.holds (i : Interval) (c : Nat) (k : Int) : Bool :=
  let scaled := c * Nat.pow 10 k.toNat * i.den
  let unit := Nat.pow 10 (-k).toNat
  if i.closed then i.low * unit ≤ scaled && scaled ≤ i.high * unit
  else i.low * unit < scaled && scaled < i.high * unit

/-- The exponent of the leading decimal digit of the value. -/
def Interval.magnitude (i : Interval) : Int :=
  if i.den ≤ i.value then decimalLength (i.value / i.den) - 1
  else -(decimalLength (i.den / i.value))

/-- The value is nearer to the grid point above `c * 10 ^ k` than to this one; at
equal distance the even one of the two counts as nearer. -/
def Interval.prefersAbove (i : Interval) (c : Nat) (k : Int) : Bool :=
  let unit := Nat.pow 10 k.toNat * i.den
  let twice := 2 * (i.value * Nat.pow 10 (-k).toNat)
  let middle := (2 * c + 1) * unit
  middle < twice || (middle == twice && c % 2 == 1)

/-- The better of the two neighbours of the value on the grid of `n` digits, if one
of them reads back. -/
def Interval.onGrid? (i : Interval) (n : Nat) : Option Shortest :=
  let k := i.magnitude - n + 1
  let c := i.value * Nat.pow 10 (-k).toNat / (Nat.pow 10 k.toNat * i.den)
  match i.holds c k, i.holds (c + 1) k with
  | true, true => some ⟨if i.prefersAbove c k then c + 1 else c, k⟩
  | true, false => some ⟨c, k⟩
  | false, true => some ⟨c + 1, k⟩
  | false, false => none

/-- The decimal without trailing zeros. There are no more zeros than digits, and
`fuel` counts these. -/
def Shortest.strip : (fuel : Nat) → Shortest → Shortest
  | 0, s => s
  | fuel + 1, s =>
    if s.digits % 10 = 0 ∧ s.digits ≠ 0 then strip fuel ⟨s.digits / 10, s.exponent + 1⟩ else s

/-- The shortest decimal of a nonzero finite number. Seventeen digits tell any two
numbers of the format apart, so the search ends on the last grid at the latest. -/
def shortest (biased : Fin 2047) (fraction : Fin 4503599627370496) : Shortest :=
  let i := interval biased fraction
  let found := (List.range 17).findSome? fun n => i.onGrid? (n + 1)
  (found.getD ⟨0, 0⟩).strip 17

/-! ## The written form -/

/-- How numbers are written: the words for values that are no decimals, and the
range of leading exponents that are written without an exponent. -/
structure Style where
  undefined : String
  infinity : String
  positionalFrom : Int
  positionalBelow : Int

/-- Messages write `nan` and `inf`; ten thousandths and up to sixteen digits before
the point are positional. -/
def Style.plain : Style := ⟨"nan", "inf", -4, 16⟩

/-- JSON text uses the same digits and other words. -/
def Style.json : Style := ⟨"NaN", "Infinity", -4, 16⟩

/-- The digits of a decimal with a point and at least one digit on either side of it. -/
def positional (digits : List Char) (point : Int) : List Char :=
  if point ≤ 0 then '0' :: '.' :: (List.replicate (-point).toNat '0' ++ digits)
  else if digits.length ≤ point.toNat then
    digits ++ List.replicate (point.toNat - digits.length) '0' ++ ['.', '0']
  else digits.take point.toNat ++ '.' :: digits.drop point.toNat

/-- The digits with a point after the first one, if others follow, and a signed
exponent of at least two digits. -/
def scientific (digits : List Char) (exponent : Int) : List Char :=
  let size := Nat.toDigits 10 exponent.natAbs
  digits.take 1 ++ (if digits.length = 1 then [] else '.' :: digits.drop 1) ++
    'e' :: (if exponent < 0 then '-' else '+') ::
    (List.replicate (2 - size.length) '0' ++ size)

def write (style : Style) : Binary64 → String
  | .nan => style.undefined
  | .infinite negative => (if negative then "-" else "") ++ style.infinity
  | .finite negative b f =>
    let body :=
      if mantissa b f = 0 then ['0', '.', '0'] else
      let s := shortest b f
      let digits := Nat.toDigits 10 s.digits
      let exponent := s.exponent + digits.length - 1
      if style.positionalFrom ≤ exponent ∧ exponent < style.positionalBelow then
        positional digits (exponent + 1)
      else scientific digits exponent
    (if negative then "-" else "") ++ String.ofList body

def text (x : Binary64) : String :=
  x.write .plain

example : (ofDecimal false 1 (-1)).text = "0.1" := by decide
example : (ofDecimal true 1 23).text = "-1e+23" := by decide
example : (ofDecimal false 5 (-324)).text = "5e-324" := by decide +kernel
example : (ofDecimal false 100 0).text = "100.0" := by decide
example : (ofDecimal false 25 (-6)).text = "2.5e-05" := by decide
example : (ofDecimal false 17976931348623157 292).text = "1.7976931348623157e+308" := by
  decide +kernel

end CallPlan.Binary64
