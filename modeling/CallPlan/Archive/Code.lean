import CallPlan.Archive.Bits

/-!
# Codes

A code gives symbols words of bits of which none begins another one, so a row of words
can be read without marks between them. It is written down by the lengths of its words:
words are numbers, counted up from the short words to the long ones and among words of
one length from symbol to symbol. A symbol whose length is zero has no word.
-/

namespace CallPlan.Archive

namespace Code

/-- The length of the longest word. -/
def longest : Nat := 15

def symbolsOf (lengths : List Nat) (length : Nat) : List Nat :=
  lengths.zipIdx.filterMap fun (l, symbol) => if l = length then some symbol else none

/-- The words from a length on, of which the first is a given number. -/
def wordsFrom (lengths : List Nat) : (steps length first : Nat) → List (Nat × Bits)
  | 0, _, _ => []
  | steps + 1, length, first =>
    let symbols := symbolsOf lengths length
    symbols.zipIdx.map (fun (symbol, i) => (symbol, highFirst length (first + i))) ++
      wordsFrom lengths steps (length + 1) ((first + symbols.length) * 2)

def words (lengths : List Nat) : List (Nat × Bits) :=
  wordsFrom lengths longest 1 0

def table (lengths : List Nat) : Array Bits :=
  (words lengths).foldl (fun t (symbol, word) => t.setIfInBounds symbol word)
    (Array.replicate lengths.length [])

end Code

/-! ## Lengths and distances

A number of a wide range is written by a symbol for the span that it lies in, and by its
place in the span. -/

/-- A span of numbers: the first one, and the number of bits that places in it have. -/
structure Span where
  base : Nat
  extra : Nat
  deriving DecidableEq, Repr

namespace Span

def lengths : List Span :=
  [⟨3, 0⟩, ⟨4, 0⟩, ⟨5, 0⟩, ⟨6, 0⟩, ⟨7, 0⟩, ⟨8, 0⟩, ⟨9, 0⟩, ⟨10, 0⟩, ⟨11, 1⟩, ⟨13, 1⟩,
    ⟨15, 1⟩, ⟨17, 1⟩, ⟨19, 2⟩, ⟨23, 2⟩, ⟨27, 2⟩, ⟨31, 2⟩, ⟨35, 3⟩, ⟨43, 3⟩, ⟨51, 3⟩,
    ⟨59, 3⟩, ⟨67, 4⟩, ⟨83, 4⟩, ⟨99, 4⟩, ⟨115, 4⟩, ⟨131, 5⟩, ⟨163, 5⟩, ⟨195, 5⟩,
    ⟨227, 5⟩, ⟨258, 0⟩]

def distances : List Span :=
  [⟨1, 0⟩, ⟨2, 0⟩, ⟨3, 0⟩, ⟨4, 0⟩, ⟨5, 1⟩, ⟨7, 1⟩, ⟨9, 2⟩, ⟨13, 2⟩, ⟨17, 3⟩, ⟨25, 3⟩,
    ⟨33, 4⟩, ⟨49, 4⟩, ⟨65, 5⟩, ⟨97, 5⟩, ⟨129, 6⟩, ⟨193, 6⟩, ⟨257, 7⟩, ⟨385, 7⟩,
    ⟨513, 8⟩, ⟨769, 8⟩, ⟨1025, 9⟩, ⟨1537, 9⟩, ⟨2049, 10⟩, ⟨3073, 10⟩, ⟨4097, 11⟩,
    ⟨6145, 11⟩, ⟨8193, 12⟩, ⟨12289, 12⟩, ⟨16385, 13⟩, ⟨24577, 13⟩]

/-- The last span that begins at a number or below it, with its index. -/
def locate (spans : List Span) (n : Nat) : Nat × Span :=
  spans.zipIdx.foldl (fun found (s, i) => if s.base ≤ n then (i, s) else found) (0, ⟨0, 0⟩)

def place (s : Span) (n : Nat) : Bits :=
  lowFirst s.extra (n - s.base)

end Span

/-! ## Codes that need not be written down -/

namespace Code

def endOfBlock : Nat := 256

/-- The lengths of the words for bytes and copies in the fixed code. -/
def fixedLengths : List Nat :=
  List.replicate 144 8 ++ List.replicate 112 9 ++ List.replicate 24 7 ++ List.replicate 8 8

def fixedDistances : List Nat :=
  List.replicate 32 5

/-- The order in which the lengths for the lengths of a code are written down. -/
def lengthOrder : List Nat :=
  [16, 17, 18, 0, 8, 7, 9, 6, 10, 5, 11, 4, 12, 3, 13, 2, 14, 1, 15]

example : table [1, 2, 0, 2] = #[[false], [true, false], [], [true, true]] := by decide

end Code

end CallPlan.Archive
