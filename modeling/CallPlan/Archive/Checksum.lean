/-!
# Checksums

The cyclic redundancy check that ZIP archives keep of every file: the remainder of the
bytes, as a polynomial with its lowest bit first, by the polynomial EDB88320.
-/

namespace CallPlan.Archive

/-- One bit is shifted out of a remainder. -/
def shiftOut (r : UInt32) : UInt32 :=
  if r &&& 1 = 1 then (r >>> 1) ^^^ 0xedb88320 else r >>> 1

/-- One byte goes into a remainder. -/
def takeIn (r : UInt32) (b : UInt8) : UInt32 :=
  Nat.repeat shiftOut 8 (r ^^^ b.toUInt32)

def checksum (bytes : List UInt8) : UInt32 :=
  bytes.foldl takeIn 0xffffffff ^^^ 0xffffffff

example : checksum [] = 0 := by decide
example : checksum "123456789".toUTF8.data.toList = 0xcbf43926 := by decide +kernel

end CallPlan.Archive
