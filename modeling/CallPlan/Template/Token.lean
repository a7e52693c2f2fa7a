/-!
# Templates

The texts among a command's parameters are templates: literal text with references to
environment variables and to the results of earlier commands. A reference names a
result by its id and a field of it, or a field of one element of a sequence that the
field holds; the element is named by its index or by the value it has under a key.

Every template has one written form (`Token.chars`), in which a literal brace is
written with an exclamation mark behind it.
-/

namespace CallPlan

/-- How a reference names one element of a sequence. -/
inductive Selector
  /-- By its place, written in digits when variables have been expanded. -/
  | index (text : String)
  /-- As the first element with a certain value under a key. -/
  | entry (key wanted : String)
  deriving DecidableEq, Repr

/-- A reference to a field of a result, or to a field of an element of it. -/
structure Reference where
  id : String
  field : String
  element : Option (Selector × String)
  deriving DecidableEq, Repr

/-- A piece of a template. -/
inductive Token
  | literal (text : String)
  /-- A variable, written inside braces or on its own. -/
  | env (name : String) (braced : Bool)
  | reference (r : Reference)
  deriving DecidableEq, Repr

namespace Selector

def chars : Selector → List Char
  | .index text => text.toList
  | .entry key wanted => '$' :: (key.toList ++ '$' :: wanted.toList)

end Selector

namespace Reference

def chars (r : Reference) : List Char :=
  r.id.toList ++ '.' :: (r.field.toList ++
    match r.element with
    | none => []
    | some (selector, sub) => '[' :: (selector.chars ++ ']' :: '.' :: sub.toList))

end Reference

namespace Token

/-- A literal with its braces marked as such. -/
def literalChars (cs : List Char) : List Char :=
  cs.flatMap fun c => if c = '\x7b' then ['\x7b', '!'] else [c]

def envChars (name : String) : List Char :=
  '%' :: (name.toList ++ ['%'])

def chars : Token → List Char
  | .literal text => literalChars text.toList
  | .env name false => envChars name
  | .env name true => '\x7b' :: (envChars name ++ ['\x7d'])
  | .reference r => '\x7b' :: (r.chars ++ ['\x7d'])

def write (ts : List Token) : String :=
  String.ofList (ts.flatMap chars)

end Token

end CallPlan
