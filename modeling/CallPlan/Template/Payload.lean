import CallPlan.Archive.Gather
import CallPlan.Project
import CallPlan.Text.Case

/-!
# Payloads

A text that consists of one pair of angle brackets names files whose bytes stand in for
it: several paths have bars between them. One file that is an archive already, by its
suffix, is taken as it is; anything else is packed.
-/

namespace CallPlan

namespace Payload

/-- The inside of a text that is one pair of angle brackets around at least one
character. -/
def inside? (cs : List Char) : Option (List Char) :=
  match cs with
  | '<' :: rest =>
    if rest.getLast? = some '>' then
      let inner := rest.dropLast
      if inner ≠ [] ∧ '<' ∉ inner ∧ '>' ∉ inner then some inner else none
    else none
  | _ => none

/-- The paths that a text names, if it names files at all. Blanks around a path mean
nothing. -/
def paths? (text : String) : Except Failure.Cause (Option (List String)) :=
  match inside? text.toList with
  | none => .ok none
  | some inner =>
    let parts := (Path.pieces '|' inner).map Text.trimmed
    if [] ∈ parts then .error (.emptyPath text)
    else .ok (some (parts.map String.ofList))

def plainSuffixes (xs : List Value) : Except Fault (List String) :=
  if xs.all Value.isWritable then .ok (xs.map fun x => Text.lower x.plain)
  else .error .longInteger

/-- The suffixes that a setting lists. A text lists its characters, a mapping its keys. -/
def suffixes : Value → Except Fault (List String)
  | .list xs => plainSuffixes xs
  | .map es => plainSuffixes (es.map Prod.fst)
  | .text s => .ok (s.toList.map fun c => Text.lower (String.ofList [c]))
  | _ => .error .settingKind

def archiveSuffixes (project : Project) : Except Fault (List String) := do
  suffixes (← project.setting "payload.archive_extensions" (.list [.text ".zip", .text ".jar"]))

def existing (fs : FileSystem) (base : Path) (raw : String) : Except Halt Path := do
  let p := (Path.ofText raw).under base
  if ← (fs.exists? p).mapError fun e => .fault (.file e) then return p
  else .error (.cause (.payloadMissing p))

/-- The paths of files that have to be there, or the failure of the first that is not. -/
def allExisting (fs : FileSystem) (base : Path) : List String → Except Halt (List Path)
  | [] => .ok []
  | raw :: raws => do
    let p ← existing fs base raw
    let ps ← allExisting fs base raws
    return p :: ps

def isArchive (project : Project) (fs : FileSystem) (p : Path) : Except Halt Bool := do
  if ← (fs.isFile? p).mapError fun e => .fault (.file e) then
    return (← (archiveSuffixes project).mapError .fault).contains (Text.lower p.suffix)
  else return false

def bytesOf (project : Project) (fs : FileSystem) : List Path → Except Halt (List UInt8)
  | [p] => do
    if ← isArchive project fs p then (fs.read p).mapError fun e => .fault (.file e)
    else Archive.build fs [p]
  | ps => Archive.build fs ps

def reported : Halt → Halt
  | .fault (.file e) =>
    if e.cause = .nullCharacter then .fault (.file e) else .cause (.payloadUnreadable e)
  | h => h

def load (project : Project) (fs : FileSystem) (base : Path) (raws : List String) :
    Except Halt (List UInt8) :=
  Except.mapError reported do bytesOf project fs (← allExisting fs base raws)

example : (paths? "<a| b >").toOption = some (some ["a", "b"]) := by decide
example : (paths? "<a>b").toOption = some none := by decide
example : (paths? "<a|>").toOption = none := by decide

end Payload

end CallPlan
