import CallPlan.Text.Hex

/-!
# UTF-8

Decoding is strict: overlong forms, surrogates and values past U+10FFFF are
refused at the byte that gives them away. A fault names the bytes that were
read before the reader gave up and the reason.
-/

namespace CallPlan.Text.Utf8

/-- Why a byte string is no text. -/
inductive Reason
  | start
  | continuation
  | truncated
  deriving DecidableEq, Repr

def Reason.message : Reason → String
  | .start => "invalid start byte"
  | .continuation => "invalid continuation byte"
  | .truncated => "unexpected end of data"

/-- The first place where decoding fails: `count` bytes from `position` on, the
first of which is `byte`. -/
structure Fault where
  position : Nat
  count : Nat
  byte : UInt8
  reason : Reason
  deriving DecidableEq, Repr

/-- The wording of a fault. One byte is shown itself, several by their positions. -/
def Fault.message (f : Fault) : String :=
  let place :=
    if f.count = 1 then
      s!"byte 0x{String.ofList (hexDigits 2 f.byte.toNat)} in position {f.position}"
    else s!"bytes in position {f.position}-{f.position + f.count - 1}"
  s!"'utf-8' codec can't decode {place}: {f.reason.message}"

/-- What a first byte announces: how many bytes follow, between which bounds the
next of them lies, and the bits of the character that the first byte holds. -/
structure Lead where
  more : Nat
  low : Nat
  high : Nat
  bits : Nat

/-- The announcement of a first byte. The bounds on the second byte keep out
overlong forms (after E0 and F0), surrogates (after ED) and values past the
last code point (after F4). -/
def lead? (b : UInt8) : Option Lead :=
  let n := b.toNat
  if n < 0x80 then some ⟨0, 0x80, 0xbf, n⟩
  else if n < 0xc2 then none
  else if n < 0xe0 then some ⟨1, 0x80, 0xbf, n - 0xc0⟩
  else if n < 0xf0 then
    some ⟨2, if n = 0xe0 then 0xa0 else 0x80, if n = 0xed then 0x9f else 0xbf, n - 0xe0⟩
  else if n < 0xf5 then
    some ⟨3, if n = 0xf0 then 0x90 else 0x80, if n = 0xf4 then 0x8f else 0xbf, n - 0xf0⟩
  else none

/-- The code point that a first byte and its `more` following bytes make, where
`bits` are already known and `seen` bytes have been read. A failure tells how
many bytes were read. -/
def gather (low high bits seen : Nat) : (more : Nat) → List UInt8 → Except (Nat × Reason) Nat
  | 0, _ => .ok bits
  | _ + 1, [] => .error (seen, .truncated)
  | more + 1, b :: rest =>
    if low ≤ b.toNat && b.toNat ≤ high then
      gather 0x80 0xbf (bits * 64 + (b.toNat - 0x80)) (seen + 1) more rest
    else .error (seen, .continuation)

/-- The characters of a byte string that begins at `position`. -/
def decodeFrom (position : Nat) : List UInt8 → Except Fault (List Char)
  | [] => .ok []
  | b :: rest =>
    match lead? b with
    | none => .error ⟨position, 1, b, .start⟩
    | some l =>
      match gather l.low l.high l.bits 1 l.more rest with
      | .error (seen, reason) => .error ⟨position, seen, b, reason⟩
      | .ok n => do
        let cs ← decodeFrom (position + 1 + l.more) (rest.drop l.more)
        return Char.ofNat n :: cs
termination_by bytes => bytes.length
decreasing_by simp only [List.length_drop, List.length_cons]; omega

def decode (bytes : List UInt8) : Except Fault (List Char) :=
  decodeFrom 0 bytes

def decodeText (bytes : List UInt8) : Except Fault String :=
  (decode bytes).map String.ofList

def encode (s : String) : List UInt8 :=
  s.toList.flatMap String.utf8EncodeChar

theorem encode_append (s t : String) : encode (s ++ t) = encode s ++ encode t := by
  simp [encode]

end CallPlan.Text.Utf8
