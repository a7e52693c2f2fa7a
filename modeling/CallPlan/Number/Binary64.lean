/-!
# Binary floating-point numbers

A number of the binary64 format by its fields: a finite number has a sign, an
exponent field and a fraction field, and every combination of fields is a
number of its own (the two zeros included). Numbers come from exact ratios by
rounding to the nearest representable one, a half going to the even neighbour,
so nothing here depends on the arithmetic of a machine.
-/

namespace CallPlan

/-- A binary64 number. All undefined results are one value. -/
inductive Binary64
  | nan
  | infinite (negative : Bool)
  | finite (negative : Bool) (biased : Fin 2047) (fraction : Fin 4503599627370496)
  deriving DecidableEq, Repr

namespace Binary64

/-- The number with both fields zero. -/
def zero (negative : Bool) : Binary64 :=
  .finite negative 0 0

/-- The integer that a finite number scales by a power of two. -/
def mantissa (biased : Fin 2047) (fraction : Fin 4503599627370496) : Nat :=
  if biased.val = 0 then fraction.val else 4503599627370496 + fraction.val

/-- The power of two that scales the mantissa. -/
def scale (biased : Fin 2047) : Int :=
  max (biased.val : Int) 1 - 1075

/-- The number whose fields, read as one integer, are `n`; past the last finite
one it is infinite. -/
def ofFields (negative : Bool) (n : Nat) : Binary64 :=
  if h : n / 4503599627370496 < 2047 then
    .finite negative ⟨n / 4503599627370496, h⟩
      ⟨n % 4503599627370496, Nat.mod_lt _ (by decide)⟩
  else .infinite negative

/-- A quotient rounded to the nearest integer, a half to the even one. -/
def roundDiv (num den : Nat) : Nat :=
  let q := num / den
  let twice := 2 * (num % den)
  if twice > den || (twice == den && q % 2 == 1) then q + 1 else q

/-- The binary exponent at which the ratio has 53 bits before the point, or the
least exponent there is. -/
def exponentFor (num den : Nat) : Int :=
  let q : Int := (num.log2 : Int) - den.log2 - 53
  let wide :=
    if q ≥ 0 then num ≥ den * Nat.pow 2 (53 + q.toNat)
    else num * Nat.pow 2 (-q).toNat ≥ den * Nat.pow 2 53
  max (if wide then q + 1 else q) (-1074)

/-- The nearest number to a positive ratio. The rounded mantissa and the exponent
field add up to the field integer, also where rounding carries into the next
power of two. -/
def ofRatio (negative : Bool) (num den : Nat) : Binary64 :=
  if num = 0 then zero negative else
  let q := exponentFor num den
  let m := roundDiv (num * Nat.pow 2 (-q).toNat) (den * Nat.pow 2 q.toNat)
  ofFields negative ((q + 1074).toNat * 4503599627370496 + m)

def decimalLength (n : Nat) : Nat :=
  (Nat.toDigits 10 n).length

/-- The nearest number to `digits * 10 ^ exponent`. Values outside the decimal
range of the format need no exact arithmetic. -/
def ofDecimal (negative : Bool) (digits : Nat) (exponent : Int) : Binary64 :=
  if digits = 0 then zero negative
  else if decimalLength digits + exponent > 310 then .infinite negative
  else if decimalLength digits + exponent < -330 then zero negative
  else ofRatio negative (digits * Nat.pow 10 exponent.toNat) (Nat.pow 10 (-exponent).toNat)

/-- The nearest number to an integer, unless it is too large for a finite one. -/
def ofInt? (n : Int) : Option Binary64 :=
  match ofDecimal (n < 0) n.natAbs 0 with
  | .finite s b f => some (.finite s b f)
  | _ => none

def isPositive : Binary64 → Bool
  | .nan => false
  | .infinite negative => !negative
  | .finite negative b f => !negative && mantissa b f != 0

def isFinite : Binary64 → Bool
  | .finite .. => true
  | _ => false

/-- The integer between zero and the number that is nearest to the number. -/
def truncate? : Binary64 → Option Int
  | .finite negative b f =>
    let q := scale b
    let size := mantissa b f * Nat.pow 2 q.toNat / Nat.pow 2 (-q).toNat
    some (if negative then -(size : Int) else size)
  | _ => none

/-- The number as a ratio, where it is finite: numerator and denominator. -/
def ratio? : Binary64 → Option (Int × Nat)
  | .finite negative b f =>
    let q := scale b
    let num := mantissa b f * Nat.pow 2 q.toNat
    some (if negative then -(num : Int) else num, Nat.pow 2 (-q).toNat)
  | _ => none

example : ofDecimal false 1 0 = .finite false 1023 0 := by decide
example : ofDecimal false 1 (-1) = .finite false 1019 2702159776422298 := by decide
example : ofDecimal false 1 400 = .infinite false := by decide
example : ofDecimal true 5 (-324) = .finite true 0 1 := by decide +kernel
example : ofDecimal false 9007199254740993 0 = ofDecimal false 9007199254740992 0 := by
  decide

end Binary64

end CallPlan
