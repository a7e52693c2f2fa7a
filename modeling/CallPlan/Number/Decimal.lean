import CallPlan.Number.Numeral

/-!
# Decimal numbers

A decimal keeps the digits it was written with: `1.5` and `1.50` are two decimals
of one value. Besides the finite ones there are infinities and undefined values,
quiet or signalling, which may carry a number.
-/

namespace CallPlan

/-- A decimal; a finite one is `coefficient * 10 ^ exponent` with a sign. -/
inductive Decimal
  | finite (negative : Bool) (coefficient : Nat) (exponent : Int)
  | infinite (negative : Bool)
  | undefined (negative signalling : Bool) (payload : Nat)
  deriving DecidableEq, Repr

namespace Decimal

/-- The integer that a finite decimal equals, if it does. A coefficient with fewer
digits than the exponent takes away has a remainder. -/
def toInt? : Decimal → Option Int
  | .finite negative c e =>
    let size : Option Nat :=
      if 0 ≤ e then some (c * Nat.pow 10 e.toNat)
      else if c = 0 then some 0
      else if Binary64.decimalLength c ≤ (-e).toNat then none
      else if c % Nat.pow 10 (-e).toNat = 0 then some (c / Nat.pow 10 (-e).toNat)
      else none
    size.map fun n => if negative then -(n : Int) else n
  | _ => none

def toBinary64 : Decimal → Binary64
  | .finite negative c e => .ofDecimal negative c e
  | .infinite negative => .infinite negative
  | .undefined .. => .nan

def isFinite : Decimal → Bool
  | .finite .. => true
  | _ => false

/-- The text of a decimal. It has no exponent where the exponent is not positive
and at most five zeros follow the point. -/
def text : Decimal → String
  | .infinite negative => (if negative then "-" else "") ++ "Infinity"
  | .undefined negative signalling payload =>
    (if negative then "-" else "") ++ (if signalling then "sNaN" else "NaN") ++
      (if payload = 0 then "" else toString payload)
  | .finite negative c e =>
    let digits := Nat.toDigits 10 c
    let left : Int := e + digits.length
    let plain : Bool := e ≤ 0 && left > -6
    let place : Int := if plain then left else 1
    let body :=
      if place ≤ 0 then '0' :: '.' :: (List.replicate (-place).toNat '0' ++ digits)
      else if digits.length ≤ place.toNat then
        digits ++ List.replicate (place.toNat - digits.length) '0'
      else digits.take place.toNat ++ '.' :: digits.drop place.toNat
    let power := left - place
    let tail :=
      if power = 0 then ""
      else "E" ++ (if power < 0 then "-" else "+") ++ toString power.natAbs
    (if negative then "-" else "") ++ String.ofList body ++ tail

example : text (.finite false 250 (-2)) = "2.50" := by decide
example : text (.finite false 1 (-7)) = "1E-7" := by decide
example : text (.finite true 0 5) = "-0E+5" := by decide
example : text (.finite false 123456 (-3)) = "123.456" := by decide
example : toInt? (.finite false 120 (-1)) = some 12 := by decide

end Decimal

end CallPlan
