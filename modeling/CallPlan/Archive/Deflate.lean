import CallPlan.Archive.CodeLengths
import CallPlan.Archive.Repeats

/-!
# Deflating bytes

Bytes are divided into pieces, and the pieces into blocks. A block is written in the
shortest of three ways: as its bytes, with the fixed code, or with a code of its own,
which is written in front of it. Of equal sizes the bytes win over the codes, and the
fixed code wins over an own one.

The lengths of an own code are written as runs, with a third code for the lengths and the
signs for runs.
-/

namespace CallPlan.Archive

namespace Deflate

/-! ## Pieces in codes -/

def word (table : Array Bits) (symbol : Nat) : Bits :=
  table.getD symbol []

def pieceBits (symbols distances : Array Bits) : Piece → Bits
  | .literal b => word symbols b.toNat
  | .copy length distance =>
    let (l, ls) := Span.locate Span.lengths length
    let (d, ds) := Span.locate Span.distances distance
    word symbols (257 + l) ++ ls.place length ++ word distances d ++ ds.place distance

def body (lengths distances : List Nat) (pieces : List Piece) : Bits :=
  let symbols := Code.table lengths
  let distances := Code.table distances
  pieces.flatMap (pieceBits symbols distances) ++ word symbols Code.endOfBlock

def tally (size : Nat) (symbols : List Nat) : List Nat :=
  (symbols.foldl (fun counts s => counts.modify s (· + 1)) (Array.replicate size 0)).toList

def symbolOf : Piece → Nat
  | .literal b => b.toNat
  | .copy length _ => 257 + (Span.locate Span.lengths length).1

def distanceOf? : Piece → Option Nat
  | .literal _ => none
  | .copy _ distance => some (Span.locate Span.distances distance).1

/-! ## Runs of lengths -/

/-- A symbol of the code for lengths, with the place in its span for the signs of runs. -/
structure LengthSign where
  symbol : Nat
  place : Bits
  deriving Repr

def single (length : Nat) : LengthSign := ⟨length, []⟩

def zeroSigns (count : Nat) : List LengthSign :=
  if count < 3 then List.replicate count (single 0)
  else if count ≤ 10 then [⟨17, lowFirst 3 (count - 3)⟩]
  else if count ≤ 138 then [⟨18, lowFirst 7 (count - 11)⟩]
  else ⟨18, lowFirst 7 127⟩ :: zeroSigns (count - 138)

/-- Signs for a length that comes `count` times again. -/
def againSigns (length count : Nat) : List LengthSign :=
  if count < 3 then List.replicate count (single length)
  else if count ≤ 6 then [⟨16, lowFirst 2 (count - 3)⟩]
  else ⟨16, lowFirst 2 3⟩ :: againSigns length (count - 6)

def runSigns (length count : Nat) : List LengthSign :=
  if length = 0 then zeroSigns count
  else single length :: againSigns length (count - 1)

def signs : List Nat → List LengthSign
  | [] => []
  | l :: ls =>
    runSigns l ((ls.takeWhile (· = l)).length + 1) ++ signs (ls.dropWhile (· = l))
termination_by ls => ls.length
decreasing_by
  have := (List.dropWhile_suffix (l := ls) (· = l)).length_le
  simp only [List.length_cons]
  omega

/-- The lengths for the code of lengths in the order in which they are written, without
the zeros at the end; at least four. -/
def ordered (lengths : List Nat) : List Nat :=
  let all := Code.lengthOrder.map (lengths.getD · 0)
  let count := (all.reverse.dropWhile (· = 0)).length
  all.take (max count 4)

def header (lengths distances : List Nat) : Bits :=
  let signs := signs lengths ++ signs distances
  let third := Code.ofWeights 7 (tally 19 (signs.map (·.symbol)))
  let table := Code.table third
  let written := ordered third
  lowFirst 5 (lengths.length - 257) ++ lowFirst 5 (distances.length - 1) ++
    lowFirst 4 (written.length - 4) ++ written.flatMap (lowFirst 3) ++
    signs.flatMap fun s => word table s.symbol ++ s.place

/-! ## Blocks -/

/-- A number of bits in whole bytes, with the three bits in front of a block. -/
def sizeOf (bits : Bits) : Nat :=
  (bits.length + 3 + 7) / 8

/-- The bits in front of a block: whether it is the last one, and how it is written. -/
def mark (last : Bool) (kind : Nat) : Bits :=
  last :: lowFirst 2 kind

/-- A block as its bytes, given the number of bits before it. -/
def storedBlock (before : Nat) (last : Bool) (bytes : List UInt8) : Bits :=
  mark last 0 ++ padding (before + 3) ++ lowFirst 16 bytes.length ++
    lowFirst 16 (0xffff - bytes.length) ++ bitsOfBytes bytes

/-- A block of pieces that stand for bytes, given the number of bits before it. -/
def block (before : Nat) (last : Bool) (bytes : List UInt8) (pieces : List Piece) : Bits :=
  let lengths := Code.ofWeights 15 (tally 286 (pieces.map symbolOf ++ [Code.endOfBlock]))
  let distances := Code.ofWeights 15 (tally 30 (pieces.filterMap distanceOf?))
  let own := header lengths distances ++ body lengths distances pieces
  let fixed := body Code.fixedLengths Code.fixedDistances pieces
  if bytes.length + 4 ≤ min (sizeOf own) (sizeOf fixed) then storedBlock before last bytes
  else if sizeOf fixed ≤ sizeOf own then mark last 1 ++ fixed
  else mark last 2 ++ own

def blockSize : Nat := 16383

def endsSingle (pieces : List Piece) : Bool :=
  match pieces.getLast? with
  | some (.literal _) => true
  | _ => false

/-- Pieces in blocks. A block is closed as soon as it is full, but a byte that is the very
last piece does not close it. -/
def inBlocks (pieces : List Piece) : List (List Piece) :=
  if _h : pieces.length < blockSize then [pieces]
  else if pieces.length = blockSize ∧ endsSingle pieces then [pieces]
  else pieces.take blockSize :: inBlocks (pieces.drop blockSize)
termination_by pieces.length
decreasing_by simp only [List.length_drop, blockSize] at *; omega

/-- The bits of blocks which stand for bytes, given the number of bits before them. -/
def blocks (before : Nat) (bytes : List UInt8) : List (List Piece) → Bits
  | [] => []
  | pieces :: more =>
    let size := Piece.totalSize pieces
    let bits := block before more.isEmpty (bytes.take size) pieces
    bits ++ blocks (before + bits.length) (bytes.drop size) more

end Deflate

def deflate (bytes : List UInt8) : List UInt8 :=
  let pieces := Repeats.pieces .usual bytes.toArray
  bytesOfBits (Deflate.blocks 0 bytes (Deflate.inBlocks pieces))

example : (Deflate.signs [8, 8, 8, 8, 8, 0, 0, 0, 7]).map (·.symbol) = [8, 16, 17, 7] := by
  decide +kernel

end CallPlan.Archive
