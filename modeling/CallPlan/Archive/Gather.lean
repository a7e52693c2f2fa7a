import CallPlan.Archive.Zip
import CallPlan.Failure

/-!
# Packing files

Paths name what goes into an archive: a file goes in under its own name, a directory
with all files found below it under their ways from there. To find these, all directories
below it are opened, which the operating system refuses where their paths get too long; a
directory that may not be opened is passed over. Then everything found is looked at, which
fails where there is no right to. No two files may have one name in the archive. The archive
holds the files in the order of their names, so the order in which the paths were given does
not matter, and all of them with the earliest time, so it does not matter either when they
were written.
-/

namespace CallPlan.Archive

/-- Something that a path contributes: its name in the archive, and where it is. -/
structure Source where
  name : String
  path : Path
  deriving DecidableEq, Repr

/-- Opens the directories among the things found below a path. -/
def openAll (fs : FileSystem) (p : Path) : List (Location × CallPlan.Entry) → Except FileError Unit
  | [] => .ok ()
  | (way, .directory _) :: found =>
    match fs.isDirectory? (p.below way) with
    | .ok _ => openAll fs p found
    | .error e => if e.cause = .denied then openAll fs p found else .error e
  | (_, .file ..) :: found => openAll fs p found

/-- Everything that is found below a directory, files and directories. -/
def found (fs : FileSystem) (p : Path) : Except FileError (List Source) := do
  let directory ← fs.locate p
  openAll fs p (fs.descendants directory)
  return (fs.descendants directory).map fun (way, _) => ⟨Path.joined way, p.below way⟩

/-- The sources so far with one more, unless its name is taken. -/
def add (sources : List Source) (s : Source) : Except Halt (List Source) :=
  if s.name ∈ sources.map (·.name) then .error (.cause (.duplicateEntry s.name))
  else .ok (sources ++ [s])

/-- The sources so far with the files among more of them. -/
def accept (fs : FileSystem) : (sources : List Source) → List Source → Except Halt (List Source)
  | sources, [] => .ok sources
  | sources, s :: ss => do
    if ← (fs.isFile? s.path).mapError fun e => .fault (.file e) then
      accept fs (← add sources s) ss
    else accept fs sources ss

/-- What paths contribute together. A path is searched when all before it have been accepted. -/
def gather (fs : FileSystem) : (sources : List Source) → List Path → Except Halt (List Source)
  | sources, [] => .ok sources
  | sources, p :: ps => do
    if ← (fs.isDirectory? p).mapError fun e => .fault (.file e) then
      let more ← (found fs p).mapError fun e => .fault (.file e)
      gather fs (← accept fs sources more) ps
    else gather fs (← add sources ⟨p.name, p⟩) ps

def item (fs : FileSystem) (s : Source) : Except FileError Item := do
  let e ← fs.stat s.path
  let content ← fs.read s.path
  return ⟨s.name, earliest, .deflated, regular + e.mode, content⟩

/-- The files of an archive that sources become, or the first that cannot be read. -/
def items (fs : FileSystem) : List Source → Except FileError (List Item)
  | [] => .ok []
  | s :: ss => do
    let i ← item fs s
    let is ← items fs ss
    return i :: is

def inOrder (ss : List Source) : List Source :=
  Sorting.sort (fun a b => Sorting.textLe a.name b.name) ss

def contents (fs : FileSystem) (ps : List Path) : Except Halt (List Item) := do
  let sources ← gather fs [] ps
  (items fs (inOrder sources)).mapError fun e => .fault (.file e)

def build (fs : FileSystem) (ps : List Path) : Except Halt (List UInt8) :=
  (contents fs ps).map write

end CallPlan.Archive
