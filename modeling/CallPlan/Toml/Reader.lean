import CallPlan.Toml.Scalar

/-!
# Reading TOML documents

A document is a row of statements, one a line: a header that opens a table, a header
that adds a table to a list, or a key with its value. The reader keeps the table that
the statements have made and which keys can no longer be used: a table is opened by
one header only, a table written by keys with points is not opened by a header, and a
list or table that is a value is never added to.

Reading takes steps, each of which reads at least one character, so the number of
characters bounds them (`ofChars`). An integer with too many digits ends the reading where
it stands.
-/

namespace CallPlan.Toml

/-! ## Values -/

/-- The text after blanks, line feeds and comments, which may stand between the items of
a list. `comment` tells that a comment has begun. -/
def gap? : (comment : Bool) → List Char → Option (List Char)
  | _, [] => some []
  | true, c :: rest =>
    if c = '\n' then gap? false rest
    else if isControl c then none
    else gap? true rest
  | false, c :: rest =>
    if c = '#' then gap? true rest
    else if isBlank c ∨ c = '\n' then gap? false rest
    else some (c :: rest)

/-- The value holds others, so nothing can be added below its key. -/
def isNest : Toml → Bool
  | .list _ | .table _ => true
  | _ => false

/-- A key lies at or below one of the closed keys. -/
def isClosed (closed : List (List String)) (key : List String) : Bool :=
  closed.any (·.isPrefixOf key)

/-- Sets the value of a key with points, which must be new. -/
def assign (intoLists : Bool) (key : List String) (x : Toml) (t : Members) : Option Members := do
  change intoLists (addMember (← key.getLast?) x) key.dropLast t

def assigned? (cs : List Char) : Option (List String × List Char) := do
  match ← key? (cs.length + 1) cs with
  | (key, '=' :: rest) => return (key, skip rest)
  | _ => none

/-- A part that holds no other parts. An integer with too many digits is none. -/
def scalar (cs : List Char) : Except ReadError (Toml × List Char) :=
  match scalarAt? cs, longDigits? cs with
  | some (.int _, _), some digits => .error (.longNumeral digits)
  | read, _ => ReadError.require read

mutual

def value : (steps : Nat) → List Char → Except ReadError (Toml × List Char)
  | 0, _ => .error .malformed
  | steps + 1, '[' :: rest => do
    match ← ReadError.require (gap? false rest) with
    | ']' :: rest => return (.list [], rest)
    | cs => (items steps cs).map fun (xs, rest) => (.list xs, rest)
  | steps + 1, '\x7b' :: rest =>
    match skip rest with
    | '\x7d' :: rest => .ok (.table [], rest)
    | cs => (members steps [] [] cs).map fun (ms, rest) => (.table ms, rest)
  | _ + 1, cs => scalar cs

/-- The items of a list up to its closing bracket, in front of which a comma may
stand. -/
def items : (steps : Nat) → List Char → Except ReadError (List Toml × List Char)
  | 0, _ => .error .malformed
  | steps + 1, cs => do
    let (x, rest) ← value steps cs
    match ← ReadError.require (gap? false rest) with
    | ']' :: rest => return ([x], rest)
    | ',' :: rest =>
      match ← ReadError.require (gap? false rest) with
      | ']' :: rest => return ([x], rest)
      | cs => (items steps cs).map fun (xs, rest) => (x :: xs, rest)
    | _ => .error .malformed

/-- The members of a table between braces, up to its closing brace. `closed` are the
keys below which nothing can be added, `made` is the table so far. -/
def members : (steps : Nat) → (closed : List (List String)) → (made : Members) →
    List Char → Except ReadError (Members × List Char)
  | 0, _, _, _ => .error .malformed
  | steps + 1, closed, made, cs => do
    let (key, rest) ← ReadError.require (assigned? cs)
    let (x, rest) ← value steps rest
    if isClosed closed key then .error .malformed
    else
      let made ← ReadError.require (assign false key x made)
      match skip rest with
      | '\x7d' :: rest => return (made, rest)
      | ',' :: rest => members steps (if x.isNest then key :: closed else closed) made (skip rest)
      | _ => .error .malformed

end

/-! ## Documents -/

/-- What the statements up to some line have made. Keys are given from the top of the
document. -/
structure Document where
  table : Members
  /-- Values that are lists or tables: nothing is added at or below them. -/
  closed : List (List String)
  /-- Tables that no header may open again. -/
  declared : List (List String)
  /-- Tables that keys with points have opened since the last header. They count as
  declared from the next header on. -/
  opened : List (List String)
  /-- The table that the last header has opened. -/
  header : List String

namespace Document

def empty : Document := ⟨[], [], [], [], []⟩

/-- The tables that a key with points opens on its way. -/
def ways (header key : List String) : List (List String) :=
  ((List.range key.length).drop 1).map fun n => header ++ key.take n

def assign (d : Document) (key : List String) (x : Toml) : Option Document :=
  let whole := d.header ++ key
  let way := ways d.header key
  if way.any d.declared.contains || isClosed d.closed whole.dropLast then none
  else do
    let table ← Toml.assign true whole x d.table
    return { d with
      table
      closed := if x.isNest then whole :: d.closed else d.closed
      opened := way ++ d.opened }

def openTable (d : Document) (key : List String) : Option Document :=
  let declared := d.opened ++ d.declared
  if declared.contains key || isClosed d.closed key then none
  else do
    let table ← change true some key d.table
    return { d with table, declared := key :: declared, opened := [], header := key }

/-- The document with a header that adds a table to a list. What was known of the keys
at and below it is about the table before. -/
def addTable (d : Document) (key : List String) : Option Document :=
  let declared := d.opened ++ d.declared
  if isClosed d.closed key then none
  else do
    let table ← change true (Toml.addTable (← key.getLast?)) key.dropLast d.table
    return {
      table
      closed := d.closed.filter fun k => !key.isPrefixOf k
      declared := key :: declared.filter fun k => !key.isPrefixOf k
      opened := []
      header := key }

end Document

/-- The document with a table that a header opens. -/
def header? (d : Document) : List Char → Option (Document × List Char)
  | '[' :: '[' :: rest => do
    match ← key? (rest.length + 1) (skip rest) with
    | (key, ']' :: ']' :: rest) => return (← d.addTable key, rest)
    | _ => none
  | '[' :: rest => do
    match ← key? (rest.length + 1) (skip rest) with
    | (key, ']' :: rest) => return (← d.openTable key, rest)
    | _ => none
  | _ => none

def statement (d : Document) (cs : List Char) : Except ReadError (Document × List Char) :=
  match cs with
  | '#' :: _ => .ok (d, cs)
  | '[' :: _ => ReadError.require (header? d cs)
  | cs => do
    let (key, rest) ← ReadError.require (assigned? cs)
    let (x, rest) ← value (rest.length + 1) rest
    return (← ReadError.require (d.assign key x), rest)

/-- The statements of a document, in at most `steps` steps. -/
def statements : (steps : Nat) → Document → List Char → Except ReadError Document
  | 0, _, _ => .error .malformed
  | steps + 1, d, cs =>
    match skip cs with
    | [] => .ok d
    | '\n' :: rest => statements steps d rest
    | cs => do
      let (d, rest) ← statement d cs
      match ← ReadError.require (comment? (skip rest)) with
      | [] => return d
      | '\n' :: rest => statements steps d rest
      | _ => .error .malformed

/-- A carriage return in front of a line feed means nothing. -/
def lineFeeds : List Char → List Char
  | '\r' :: '\n' :: rest => '\n' :: lineFeeds rest
  | c :: rest => c :: lineFeeds rest
  | [] => []

def ofChars (cs : List Char) : Except ReadError Members :=
  (statements (cs.length + 1) .empty (lineFeeds cs)).map Document.table

def ofText (s : String) : Except ReadError Members :=
  ofChars s.toList

example : (ofText "a.b = 1 # one\n[[c]]\n[[c]]\nd = [1, 2,]\n").toOption =
    some [("a", .table [("b", .int 1)]),
      ("c", .list [.table [], .table [("d", .list [.int 1, .int 2])]])] := by cbv
example : (ofText "a = \x7b b = 1, b = 2 \x7d").toOption = none := by cbv
example : (ofText "[a]\n[a]").toOption = none := by cbv

end CallPlan.Toml
