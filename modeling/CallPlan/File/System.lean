import CallPlan.Fields
import CallPlan.File.Path
import CallPlan.Sorting
import CallPlan.Text.Quoted

/-!
# Files

A file system is a table of what stands at which location, together with the
working directory. Operations follow a path part by part, as an operating system
does: every part but the last has to lead to a directory, `..` leads to the
directory above, and a part of more than 255 bytes or a path of 4096 and more is
refused. There are no links, so a location has one way from the root.

What the process may do with what stands at a location is a matter of its own: modes and
owners decide it outside of this library. To go on from a directory, to list it and to
make something in it takes a right each, and so does reading or writing a file.

Every operation either succeeds or tells the cause of its failure together with
the path it was asked for.
-/

namespace CallPlan

/-- What stands at a location. -/
inductive Entry
  | file (mode : Nat) (content : List UInt8)
  | directory (mode : Nat)
  deriving DecidableEq, Repr

def Entry.size : Entry → Nat
  | .file _ content => content.length
  | .directory _ => 4096

def Entry.mode : Entry → Nat
  | .file mode _ => mode
  | .directory mode => mode

abbrev Location := List String

/-- What may be done with what stands at a location. -/
inductive Right
  /-- A file is read, or a directory listed. -/
  | read
  /-- A file is written, or something made in a directory. -/
  | write
  /-- A path goes on from a directory. -/
  | search
  deriving DecidableEq, Repr

/-- The files there are, the directory that relative paths begin in, and what the process
has no right to do. -/
structure FileSystem where
  working : Location
  entries : List (Location × Entry)
  forbids : Location → Right → Bool

/-- No files but the root, and every right. -/
def FileSystem.empty : FileSystem where
  working := []
  entries := []
  forbids _ _ := false

/-- Why a file operation fails. -/
inductive FileError.Cause
  | notFound
  | notDirectory
  | isDirectory
  | nameTooLong
  | occupied
  | denied
  | nullCharacter
  deriving DecidableEq, Repr

/-- A failed file operation: the cause, and the path that the operation was given. -/
structure FileError where
  cause : FileError.Cause
  path : Path
  deriving DecidableEq, Repr

namespace FileError

def Cause.number : Cause → Nat
  | .notFound => 2
  | .denied => 13
  | .occupied => 17
  | .notDirectory => 20
  | .isDirectory => 21
  | .nullCharacter => 22
  | .nameTooLong => 36

def Cause.message : Cause → String
  | .notFound => "No such file or directory"
  | .denied => "Permission denied"
  | .occupied => "File exists"
  | .notDirectory => "Not a directory"
  | .isDirectory => "Is a directory"
  | .nullCharacter => "embedded null byte"
  | .nameTooLong => "File name too long"

/-- The cause makes a test on a path fail, where others make it say no. -/
def Cause.spoilsTest (c : Cause) : Bool :=
  c = .nameTooLong || c = .denied

/-- The wording of a failure. A path that no system call can take has no number. -/
def message (e : FileError) : String :=
  if e.cause = .nullCharacter then e.cause.message
  else s!"[Errno {e.cause.number}] {e.cause.message}: {Text.Quoted.text e.path.text}"

end FileError

namespace FileSystem

/-- The entry at a location. The root is always a directory. -/
def at? (fs : FileSystem) : Location → Option Entry
  | [] => some (.directory 0o755)
  | l => Fields.get? l fs.entries

def put (fs : FileSystem) (l : Location) (e : Entry) : FileSystem :=
  { fs with entries := Fields.set l e fs.entries }

/-- The location that parts lead to from another one. -/
def walk (fs : FileSystem) : Location → List String → Except FileError.Cause Location
  | here, [] => .ok here
  | here, part :: rest =>
    match fs.at? here with
    | some (.directory _) =>
      if fs.forbids here .search then .error .denied
      else if part = ".." then walk fs here.dropLast rest
      else if part.utf8ByteSize > 255 then .error .nameTooLong
      else if (fs.at? (here ++ [part])).isSome then walk fs (here ++ [part]) rest
      else .error .notFound
    | some (.file ..) => .error .notDirectory
    | none => .error .notFound

def start (fs : FileSystem) (p : Path) : Location :=
  if p.isAbsolute then [] else fs.working

def refusal? (p : Path) : Option FileError.Cause :=
  if '\x00' ∈ p.text.toList then some .nullCharacter
  else if p.text.utf8ByteSize ≥ 4096 then some .nameTooLong
  else none

def locate (fs : FileSystem) (p : Path) : Except FileError Location :=
  match refusal? p with
  | some cause => .error ⟨cause, p⟩
  | none => (fs.walk (fs.start p) p.parts).mapError (⟨·, p⟩)

/-- The entry that a path leads to. -/
def stat (fs : FileSystem) (p : Path) : Except FileError Entry := do
  let l ← fs.locate p
  match fs.at? l with
  | some e => .ok e
  | none => .error ⟨.notFound, p⟩

/-- What a test on a path answers: a path that leads nowhere satisfies none, but a
name that is too long or a directory without the right to go on from it makes the test
itself fail. -/
def test (fs : FileSystem) (p : Path) (holds : Entry → Bool) : Except FileError Bool :=
  match fs.stat p with
  | .ok e => .ok (holds e)
  | .error e => if e.cause.spoilsTest then .error e else .ok false

/-- Something stands at the path. -/
def exists? (fs : FileSystem) (p : Path) : Except FileError Bool :=
  fs.test p fun _ => true

def isDirectory? (fs : FileSystem) (p : Path) : Except FileError Bool :=
  fs.test p fun
    | .directory _ => true
    | .file .. => false

def isFile? (fs : FileSystem) (p : Path) : Except FileError Bool :=
  fs.test p fun
    | .directory _ => false
    | .file .. => true

def read (fs : FileSystem) (p : Path) : Except FileError (List UInt8) := do
  let l ← fs.locate p
  let e ← fs.stat p
  if fs.forbids l .read then .error ⟨.denied, p⟩
  else
    match e with
    | .file _ content => .ok content
    | .directory _ => .error ⟨.isDirectory, p⟩

/-- What remains of a location behind a directory, if the directory is on its way. -/
def below? : (directory l : Location) → Option Location
  | [], l => some l
  | _ :: _, [] => none
  | a :: as, b :: bs => if a = b then below? as bs else none

/-- The order of ways: part by part, a way before those that go on behind it. -/
def wayLe : Location → Location → Bool
  | [], _ => true
  | _ :: _, [] => false
  | a :: as, b :: bs => if a = b then wayLe as bs else Sorting.textLe a b

/-- A part that can stand in a directory: no name has a null character. -/
def isNameable (part : String) : Bool :=
  '\x00' ∉ part.toList

/-- What a way leads to from a directory is found by listing each directory on the way.
One that may not be listed, or not be reached, is passed over. -/
def isListed (fs : FileSystem) : (directory way : Location) → Bool
  | _, [] => true
  | directory, [_] => !fs.forbids directory .read
  | directory, part :: way =>
    !fs.forbids directory .read && !fs.forbids directory .search &&
      isListed fs (directory ++ [part]) way

/-- The ways from a directory to everything that is found below it, in their order. -/
def descendants (fs : FileSystem) (directory : Location) : List (Location × Entry) :=
  let found := fs.entries.filterMap fun (l, e) =>
    match below? directory l with
    | some [] | none => none
    | some way => if way.all isNameable && fs.isListed directory way then some (way, e) else none
  Sorting.sort (fun a b => wayLe a.1 b.1) found

/-! ## Changing files -/

/-- The directory in which the last part of a path is a name, and that name. A path
that ends with `..` or has no parts names a directory that is there already. -/
def slot (fs : FileSystem) (p : Path) : Except FileError (Location × String) := do
  match refusal? p with
  | some cause => .error ⟨cause, p⟩
  | none =>
    match p.parts.getLast? with
    | none => .error ⟨.occupied, p⟩
    | some name =>
      let l ← (fs.walk (fs.start p) p.parts.dropLast).mapError (⟨·, p⟩)
      match fs.at? l with
      | some (.directory _) =>
        if fs.forbids l .search then .error ⟨.denied, p⟩
        else if name = ".." then .error ⟨.occupied, p⟩
        else if name.utf8ByteSize > 255 then .error ⟨.nameTooLong, p⟩
        else .ok (l, name)
      | some (.file ..) => .error ⟨.notDirectory, p⟩
      | none => .error ⟨.notFound, p⟩

def makeDirectory (fs : FileSystem) (p : Path) : Except FileError FileSystem := do
  let (l, name) ← fs.slot p
  if (fs.at? (l ++ [name])).isSome then .error ⟨.occupied, p⟩
  else if fs.forbids l .write then .error ⟨.denied, p⟩
  else .ok (fs.put (l ++ [name]) (.directory 0o755))

def ensureDirectory (fs : FileSystem) (p : Path) : Except FileError FileSystem :=
  match fs.makeDirectory p with
  | .ok fs => .ok fs
  | .error e => do
    if e.cause ≠ .notFound ∧ e.cause ≠ .nullCharacter ∧ (← fs.isDirectory? p) then .ok fs
    else .error e

/-- Makes a directory with the directories on its way, as far as they are missing. Where it
fails, those that it has made stay. -/
def makeDirectories (fs : FileSystem) (p : Path) : Except (FileError × FileSystem) FileSystem :=
  match fs.makeDirectory p with
  | .error ⟨.notFound, _⟩ =>
    if _h : p.parts = [] then .error (⟨.notFound, p⟩, fs)
    else
      match makeDirectories fs p.parent with
      | .ok made => (made.ensureDirectory p).mapError (·, made)
      | .error failure => .error failure
  | _ => (fs.ensureDirectory p).mapError (·, fs)
termination_by p.parts.length
decreasing_by
  simp only [Path.parent, List.length_dropLast]
  have := List.length_pos_iff.mpr _h
  omega

/-- Puts an entry at a path, in place of what is there, and makes the directories on
its way. -/
def install (fs : FileSystem) (p : Path) (e : Entry) : Except FileError FileSystem := do
  let fs ← (fs.makeDirectories p.parent).mapError Prod.fst
  let (l, name) ← fs.slot p
  return fs.put (l ++ [name]) e

/-- Adds bytes to the end of a file, which is made if it is missing. -/
def append (fs : FileSystem) (p : Path) (bytes : List UInt8) : Except FileError FileSystem := do
  match fs.slot p with
  | .error ⟨.occupied, _⟩ => .error ⟨.isDirectory, p⟩
  | .error e => .error e
  | .ok (l, name) =>
    match fs.at? (l ++ [name]) with
    | some (.file mode content) =>
      if fs.forbids (l ++ [name]) .write then .error ⟨.denied, p⟩
      else .ok (fs.put (l ++ [name]) (.file mode (content ++ bytes)))
    | some (.directory _) => .error ⟨.isDirectory, p⟩
    | none =>
      if fs.forbids l .write then .error ⟨.denied, p⟩
      else .ok (fs.put (l ++ [name]) (.file 0o644 bytes))

/-! ## What the operations do -/

theorem at?_put {fs : FileSystem} {l : Location} {e : Entry} {m : Location} (h : l ≠ []) :
    (fs.put l e).at? m = if l = m then some e else fs.at? m := by
  cases m with
  | nil => simp [at?, h]
  | cons a as => exact Fields.get?_set l (a :: as) e fs.entries

end FileSystem

end CallPlan
