/-!
# Rows of bits

Compressed data is a row of bits that fills bytes from their lowest bit up. A number
stands in it with its lowest bit first, a code word with its highest bit first
(`lowFirst`, `highFirst`).
-/

namespace CallPlan.Archive

abbrev Bits := List Bool

/-- The lowest `count` bits of a number, the lowest first. -/
def lowFirst : (count n : Nat) → Bits
  | 0, _ => []
  | count + 1, n => (n % 2 == 1) :: lowFirst count (n / 2)

/-- The lowest `count` bits of a number, the highest first. -/
def highFirst (count n : Nat) : Bits :=
  (lowFirst count n).reverse

def numberOf : Bits → Nat
  | [] => 0
  | b :: bits => b.toNat + 2 * numberOf bits

def bitsOfBytes (bytes : List UInt8) : Bits :=
  bytes.flatMap fun b => lowFirst 8 b.toNat

/-- The bytes that bits fill. What is missing from the last byte is zeros. -/
def bytesOfBits : Bits → List UInt8
  | [] => []
  | b :: bits => UInt8.ofNat (numberOf (b :: bits.take 7)) :: bytesOfBits (bits.drop 7)
termination_by bits => bits.length
decreasing_by simp only [List.length_drop, List.length_cons]; omega

/-- The zeros that are missing from the last byte after so many bits. -/
def padding (count : Nat) : Bits :=
  List.replicate ((8 - count % 8) % 8) false

example : bytesOfBits (bitsOfBytes [0x50, 0x4b]) = [0x50, 0x4b] := by decide +kernel

end CallPlan.Archive
