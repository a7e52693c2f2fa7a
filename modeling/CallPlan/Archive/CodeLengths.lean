import CallPlan.Archive.Code

/-!
# The lengths of words

Frequent symbols get short words. Symbols stand in a heap by their weights; the two
lightest subtrees are joined, again and again, and in the end the depth of a symbol in the
tree of all joins is the length of its word. Of two subtrees of one weight, the flatter one
counts as lighter.

Words must not be longer than a limit. Where some are, they are cut to it, and for every
two of them that have no room the longest of the shorter words gets longer by a bit, and
takes one of them as its twin. The lengths are then dealt out again, the longest to the
symbols that were joined first.
-/

namespace CallPlan.Archive

/-- The words of a code as ways down a tree, in which every bit decides between two
branches. -/
inductive CodeTree
  | empty
  | leaf (symbol : Nat)
  | node (zero one : CodeTree)
  deriving Repr

namespace CodeTree

/-- The symbols of a tree with their depths, where the top has a given depth. -/
def depths : (depth : Nat) → CodeTree → List (Nat × Nat)
  | _, empty => []
  | d, leaf symbol => [(symbol, d)]
  | d, node zero one => zero.depths (d + 1) ++ one.depths (d + 1)

/-- The number of leaves and nodes of a tree that are deeper than a limit. -/
def deeper (limit : Nat) : (depth : Nat) → CodeTree → Nat
  | _, empty => 0
  | d, leaf _ => if limit < d then 1 else 0
  | d, node zero one =>
    (if limit < d then 1 else 0) + zero.deeper limit (d + 1) + one.deeper limit (d + 1)

end CodeTree

/-- Symbols that have been joined. -/
structure Subtree where
  weight : Nat
  depth : Nat
  tree : CodeTree
  deriving Repr

namespace Subtree

/-- The subtree counts as lighter than another, or as no heavier. -/
def isLighter (a b : Subtree) : Bool :=
  a.weight < b.weight || (a.weight == b.weight && a.depth ≤ b.depth)

def join (a b : Subtree) : Subtree :=
  ⟨a.weight + b.weight, max a.depth b.depth + 1, .node a.tree b.tree⟩

def symbol? (t : Subtree) : Option Nat :=
  match t.tree with
  | .leaf s => some s
  | _ => none

end Subtree

/-! ## Heaps -/

/-- Subtrees of which the one at a place is no heavier than those at the next places but
twice as far. -/
abbrev Heap := Array Subtree

namespace Heap

/-- The lighter one of the two places below a place. -/
def below (heap : Heap) (place : Nat) : Nat :=
  match heap[2 * place + 2]?, heap[2 * place + 1]? with
  | some right, some left =>
    if right.isLighter left then 2 * place + 2 else 2 * place + 1
  | _, _ => 2 * place + 1

theorem lt_below (heap : Heap) (place : Nat) : place < below heap place := by
  unfold below
  split
  · split <;> omega
  · omega

/-- Puts a subtree at a place or below it, where it belongs. -/
def sink (t : Subtree) (heap : Heap) (place : Nat) : Heap :=
  if _h : below heap place < heap.size then
    let next := heap[below heap place]
    if t.isLighter next then heap.setIfInBounds place t
    else sink t (heap.setIfInBounds place next) (below heap place)
  else heap.setIfInBounds place t
termination_by heap.size - place
decreasing_by
  have := lt_below heap place
  simp only [Array.size_setIfInBounds]
  omega

/-- The subtree at a place sinks to where it belongs. -/
def settle (heap : Heap) (place : Nat) : Heap :=
  match heap[place]? with
  | some t => sink t heap place
  | none => heap

def ofList (trees : List Subtree) : Heap :=
  (List.range (trees.length / 2)).reverse.foldl settle trees.toArray

def pop (heap : Heap) : Heap :=
  match heap.back? with
  | some last => settle ((Array.pop heap).setIfInBounds 0 last) 0
  | none => heap

/-- Joins the lightest subtrees, in at most `steps` steps. Gives what is left with all
subtrees that were joined, the first ones first. -/
def joinAll : (steps : Nat) → (joined : List Subtree) → Heap → Option Subtree × List Subtree
  | 0, joined, heap => (heap[0]?, joined.reverse)
  | steps + 1, joined, heap =>
    let rest := pop heap
    match heap[0]?, rest[0]? with
    | some a, some b =>
      joinAll steps (b :: a :: joined) (sink (a.join b) rest 0)
    | last, _ => (last, joined.reverse)

end Heap

/-! ## Lengths -/

namespace Code

def atLeastTwo : List (Nat × Nat) → List (Nat × Nat)
  | [] => [(0, 1), (1, 1)]
  | [(symbol, weight)] => [(symbol, weight), (if symbol < 2 then symbol + 1 else 0, 1)]
  | used => used

/-- The longest length below a limit that occurs among `counts`, which are the numbers of
words by their lengths. -/
def longestBelow (counts : Array Nat) : (limit : Nat) → Nat
  | 0 => 0
  | limit + 1 => if 0 < counts.getD limit 0 then limit else longestBelow counts limit

/-- Makes room for words beyond the limit, two in each step. -/
def makeRoom (limit : Nat) : (beyond : Nat) → (counts : Array Nat) → Array Nat
  | 0, counts => counts
  | n + 1, counts =>
    let l := longestBelow counts limit
    let counts := counts.modify l (· - 1)
    let counts := counts.modify (l + 1) (· + 2)
    makeRoom limit (n - 1) (counts.modify limit (· - 1))

/-- The lengths of words that have been cut to a limit, from the longest to the shortest. -/
def dealt (limit : Nat) (counts : Array Nat) : List Nat :=
  (List.range (limit + 1)).reverse.flatMap fun l =>
    if l = 0 then [] else List.replicate (counts.getD l 0) l

def lengthsOf (limit : Nat) (used : List (Nat × Nat)) : List (Nat × Nat) :=
  let trees := used.map fun (symbol, weight) => Subtree.mk weight 0 (.leaf symbol)
  let (last, joined) := Heap.joinAll trees.length [] (Heap.ofList trees)
  let tree := (last.map Subtree.tree).getD .empty
  let depths := tree.depths 0
  match tree.deeper limit 0 with
  | 0 => depths
  | beyond =>
    let counts := depths.foldl (fun counts (_, d) => counts.modify (min limit d) (· + 1))
      (Array.replicate (limit + 1) 0)
    (joined.filterMap Subtree.symbol?).zip (dealt limit (makeRoom limit beyond counts))

/-- The lengths of the words of a code for weighted symbols, which are given by the weights
of all symbols. They end with the last symbol that has a word. -/
def ofWeights (limit : Nat) (weights : List Nat) : List Nat :=
  let used := weights.zipIdx.filterMap fun (w, symbol) =>
    if w = 0 then none else some (symbol, w)
  let lengths := (lengthsOf limit (atLeastTwo used)).foldl
    (fun ls (symbol, l) => ls.setIfInBounds symbol l) (Array.replicate weights.length 0)
  (lengths.toList.reverse.dropWhile (· = 0)).reverse

example : ofWeights 15 [5, 1, 1, 0] = [1, 2, 2] := by decide +kernel
example : ofWeights 15 [0, 0, 0, 7] = [1, 0, 0, 1] := by decide +kernel
example : ofWeights 2 [1, 1, 2, 4] = [2, 2, 2, 2] := by decide +kernel

end Code

end CallPlan.Archive
