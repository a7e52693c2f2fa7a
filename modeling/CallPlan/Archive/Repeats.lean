import Std.Data.HashMap.Basic

/-!
# Repeats in bytes

Bytes become pieces: single bytes, and copies of bytes that stand somewhat earlier. A copy
is looked for among the earlier places whose first three bytes have the same mark, the
nearest first, and the longest one found counts. It waits for the next place: if a longer
copy begins there, the byte in front of it stays single.

The window of the search moves on in steps of its size. Places that it has left behind,
the place at its very beginning among them, are not found any more.
-/

namespace CallPlan.Archive

/-- A byte, or so many bytes as they stand at a distance before. -/
inductive Piece
  | literal (byte : UInt8)
  | copy (length distance : Nat)
  deriving DecidableEq, Repr

def Piece.size : Piece → Nat
  | literal _ => 1
  | copy length _ => length

def Piece.totalSize : List Piece → Nat
  | [] => 0
  | p :: ps => p.size + totalSize ps

/-- How hard copies are looked for. -/
structure Effort where
  /-- With a copy of this length at hand, a quarter of the places is looked at. -/
  good : Nat
  /-- With a copy of this length at hand, the next place is not looked at. -/
  enough : Nat
  /-- A copy of this length ends the search. -/
  nice : Nat
  /-- The number of places that are looked at. -/
  places : Nat
  deriving Repr

namespace Effort

/-- The usual effort. -/
def usual : Effort := ⟨8, 16, 128, 128⟩

end Effort

namespace Repeats

/-- The length of the shortest copy. -/
def shortest : Nat := 3

/-- The length of the longest copy. -/
def longest : Nat := 258

def window : Nat := 32768

/-- The bytes that are kept in sight ahead of a place. -/
def ahead : Nat := longest + shortest + 1

/-- The greatest distance of a copy. -/
def reach : Nat := window - ahead

/-- A copy of the shortest length from farther away than this is not worth it. -/
def tooFar : Nat := 4096

/-- The mark of the three bytes at a place. -/
def mark (data : Array UInt8) (p : Nat) : Nat :=
  let byte (i : Nat) := (data.getD i 0).toNat
  ((byte p <<< 10) ^^^ (byte (p + 1) <<< 5) ^^^ byte (p + 2)) % 32768

/-- Every place with the last place before it that has the same mark. -/
def links (data : Array UInt8) : Array (Option Nat) :=
  let start : Array (Option Nat) × Std.HashMap Nat Nat := (#[], ∅)
  ((List.range (data.size - 2)).foldl (fun (found, latest) p =>
    let m := mark data p
    (found.push latest[m]?, latest.insert m p)) start).1

/-- The number of bytes, up to a limit, that agree from two places on. -/
def common (data : Array UInt8) (p q : Nat) : (limit : Nat) → Nat
  | 0 => 0
  | limit + 1 =>
    if data[p]? = data[q]? then common data (p + 1) (q + 1) limit + 1 else 0

/-- A copy that has been found: its length and the place that it copies from. -/
structure Found where
  length : Nat
  place : Nat
  deriving Repr

/-- The longest copy for a place that a candidate or one of the places linked with it
gives, or `best`. Places up to `lower` do not count. -/
def search (data : Array UInt8) (links : Array (Option Nat)) (place nice lower : Nat) :
    (steps candidate : Nat) → Found → Found
  | 0, _, best => best
  | steps + 1, candidate, best =>
    let n := common data candidate place (min longest (data.size - place))
    if best.length < n ∧ nice ≤ n then ⟨n, candidate⟩
    else
      let best := if best.length < n then ⟨n, candidate⟩ else best
      match (links[candidate]?).join with
      | some next =>
        if lower < next then search data links place nice lower steps next best else best
      | none => best

/-- The copy for a place that is longer than the one at hand. Where there is none, the
length is not greater than that of the one at hand. -/
def longer (effort : Effort) (data : Array UInt8) (links : Array (Option Nat))
    (base place : Nat) (atHand : Found) : Found :=
  let nothing : Found := { atHand with length := shortest - 1 }
  match (links[place]?).join with
  | some first =>
    if base < first ∧ place - first ≤ reach ∧ atHand.length < effort.enough then
      let steps := if effort.good ≤ atHand.length then effort.places / 4 else effort.places
      let found := search data links place (min effort.nice (data.size - place))
        (max base (place - reach)) steps first atHand
      if found.length = shortest ∧ tooFar < place - found.place then
        { found with length := shortest - 1 }
      else found
    else nothing
  | none => nothing

/-- The beginning of the window at a place: it moves on when too little is in sight. -/
def moved (size base place : Nat) : Nat :=
  if min size (base + 2 * window) - place < ahead ∧ base + window + reach ≤ place then
    base + window
  else base

/-- The pieces from a place on. `atHand` is the copy found one place before, and `waiting`
tells that the byte there has not become a piece yet. -/
def piecesFrom (effort : Effort) (data : Array UInt8) (links : Array (Option Nat))
    (base place : Nat) (atHand : Found) (waiting : Bool) (done : List Piece) : List Piece :=
  let before := Piece.literal (data.getD (place - 1) 0)
  if _h : place < data.size then
    let base := moved data.size base place
    let found := longer effort data links base place atHand
    if _hc : 3 ≤ atHand.length ∧ found.length ≤ atHand.length then
      piecesFrom effort data links base (place + (atHand.length - 1)) ⟨shortest - 1, 0⟩ false
        (.copy atHand.length (place - 1 - atHand.place) :: done)
    else
      piecesFrom effort data links base (place + 1) found true
        (if waiting then before :: done else done)
  else (if waiting then before :: done else done).reverse
termination_by data.size - place

def pieces (effort : Effort) (data : Array UInt8) : List Piece :=
  piecesFrom effort data (links data) 0 0 ⟨shortest - 1, 0⟩ false []

end Repeats

end CallPlan.Archive
