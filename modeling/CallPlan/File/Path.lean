/-!
# Paths

A path names a file by its parts, from the root or from some directory. Repeated
and trailing slashes and parts `.` mean nothing and are dropped when a path is
read; parts `..` are kept, since what they mean depends on the files.
-/

namespace CallPlan

/-- Where a path begins. Exactly two slashes in front are a root of their own. -/
inductive Path.Root
  | relative
  | single
  | double
  deriving DecidableEq, Repr

/-- A path. -/
structure Path where
  root : Path.Root
  parts : List String
  deriving DecidableEq, Repr

namespace Path

/-- The pieces of a text between separators; there is one more of them than there
are separators. -/
def pieces (separator : Char) : List Char → List (List Char)
  | [] => [[]]
  | c :: rest =>
    if c = separator then [] :: pieces separator rest
    else match pieces separator rest with
      | [] => [[c]]
      | p :: ps => (c :: p) :: ps

def ofText (s : String) : Path :=
  let cs := s.toList
  let root := match cs with
    | '/' :: '/' :: '/' :: _ => .single
    | '/' :: '/' :: _ => .double
    | '/' :: _ => .single
    | _ => .relative
  ⟨root, ((pieces '/' cs).filter fun p => p ≠ [] ∧ p ≠ ['.']).map String.ofList⟩

def Root.text : Root → String
  | .relative => ""
  | .single => "/"
  | .double => "//"

def joined (parts : List String) : String :=
  "/".intercalate parts

/-- The text that names a path; the path without root and parts is a dot. -/
def text (p : Path) : String :=
  if p.root = .relative ∧ p.parts = [] then "." else p.root.text ++ joined p.parts

def isAbsolute (p : Path) : Bool :=
  p.root ≠ .relative

def under (p directory : Path) : Path :=
  if p.isAbsolute then p else ⟨directory.root, directory.parts ++ p.parts⟩

def child (directory : Path) (name : String) : Path :=
  ⟨directory.root, directory.parts ++ [name]⟩

/-- What a path to a directory and a way from there lead to together. -/
def below (directory : Path) (way : List String) : Path :=
  ⟨directory.root, directory.parts ++ way⟩

def name (p : Path) : String :=
  p.parts.getLast?.getD ""

/-- The directory of a path; a path without parts is its own. -/
def parent (p : Path) : Path :=
  ⟨p.root, p.parts.dropLast⟩

/-- The last point of the name with what follows it, unless it stands first or last. -/
def suffix (p : Path) : String :=
  let behind := p.name.toList.reverse.takeWhile (· ≠ '.')
  let front := (p.name.toList.reverse.dropWhile (· ≠ '.')).drop 1
  if behind = [] ∨ front = [] then "" else String.ofList ('.' :: behind.reverse)

@[simp] theorem parent_child (d : Path) (name : String) : (d.child name).parent = d := by
  simp [child, parent]

example : (ofText "a//b/./c").text = "a/b/c" := by decide
example : (ofText "").text = "." := by decide
example : (ofText "/a/../b/").text = "/a/../b" := by decide
example : (ofText "d/x.tar.gz").suffix = ".gz" := by decide
example : (ofText ".toml").suffix = "" := by decide

end Path

end CallPlan
