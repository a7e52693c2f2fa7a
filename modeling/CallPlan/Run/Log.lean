import CallPlan.Json.Export
import CallPlan.Project
import CallPlan.Run.Execution

/-!
# The event log

Events are written to files, one line each: the JSON text of the event, with a time
stamp unless it has one. There is a directory for every day. In it the files are
numbered from zero, and a line goes into the first of them that is missing or below the
size limit. Once found, the file is used until it reaches the limit, the day ends or
the log is configured anew.

The directory and the limit come from the configuration of the log, else from the
project's settings, else from the defaults.
-/

namespace CallPlan

/-- The state of the log. -/
structure Log where
  /-- The directory that the log has been configured to use. -/
  directory : Option Path
  /-- The limit that the log has been configured to keep; zero is none. -/
  limit : Option Int
  /-- The file that the last line went into. -/
  current : Option Path
  deriving DecidableEq, Repr

namespace Log

/-- The log before any configuration. -/
def unconfigured : Log := ⟨none, none, none⟩

def configured (directory : Path) (limit : Option Int) : Log :=
  ⟨some directory, limit, none⟩

/-! ## Settings -/

def root (project : Project) (log : Log) : Except Fault Path :=
  match log.directory with
  | some p => .ok p
  | none => do
    match ← project.setting "log.dir" (.text "logs/runs") with
    | .text s => return .ofText s
    | _ => .error .settingKind

def settingLimit (project : Project) : Except Fault Int := do
  Project.wholeNumber (← project.setting "log.max_bytes" (.int 104857600))

def sizeLimit (project : Project) (log : Log) : Except Fault Int :=
  match log.limit with
  | some n => if n = 0 then settingLimit project else .ok n
  | none => settingLimit project

/-! ## Files -/

def dayName (d : Date) : String :=
  toString d.year ++ padded 2 d.month ++ padded 2 d.day

def fileName (n : Nat) : String :=
  "run_" ++ padded 2 n ++ ".jsonl"

/-- The file may take another line: it is missing or below the limit. -/
def hasRoom (fs : FileSystem) (limit : Int) (p : Path) : Except FileError Bool := do
  if ← fs.exists? p then return (← fs.stat p).size < limit else return true

/-- The first file from a number on that may take another line, in at most `steps`
steps. -/
def firstWithRoom (fs : FileSystem) (limit : Int) (directory : Path) :
    (steps : Nat) → (number : Nat) → Except FileError Path
  | 0, n => .ok (directory.child (fileName n))
  | steps + 1, n => do
    let p := directory.child (fileName n)
    if ← hasRoom fs limit p then return p else firstWithRoom fs limit directory steps (n + 1)

/-- The file that the last line went into may take another one today. -/
def keepsCurrent (fs : FileSystem) (limit : Int) (directory : Path) (p : Path) :
    Except FileError Bool := do
  if p.parent = directory then
    if ← fs.exists? p then return (← fs.stat p).size < limit else return false
  else return false

/-- The file that the next line goes into. There are no more files than entries, so a
search of that many steps finds it. -/
def target (fs : FileSystem) (limit : Int) (directory : Path) (current : Option Path) :
    Except FileError Path := do
  match current with
  | some p =>
    if ← keepsCurrent fs limit directory p then return p
    else firstWithRoom fs limit directory (fs.entries.length + 1) 0
  | none => firstWithRoom fs limit directory (fs.entries.length + 1) 0

/-! ## Lines -/

def stamped (now : DateTime) (es : List (Value × Value)) : List (Value × Value) :=
  match Value.find? (.text "ts") es with
  | some _ => es
  | none => es ++ [(.text "ts", .text now.isoMillis)]

def line (now : DateTime) (event : Value) : Except Fault String := do
  let es ← event.toEntries.mapError .pairs
  match Json.ofValue (.map (stamped now es)) with
  | .ok j => return j.write .line
  | .error .keys => .error .mixedKeys
  | .error .longInteger => .error .longInteger

/-! ## Writing -/

/-- The outcome of a look at the settings, which changes nothing. -/
def lookUp {α : Type} (x : Except Fault α) : EStateM Fault (Log × FileSystem) α := fun s =>
  match x with
  | .ok a => .ok a s
  | .error f => .error f s

def makeDirectory (p : Path) : EStateM Fault (Log × FileSystem) Unit := fun (log, fs) =>
  match fs.makeDirectories p with
  | .ok fs => .ok () (log, fs)
  | .error (e, fs) => .error (.file e) (log, fs)

def choose (limit : Int) (directory : Path) : EStateM Fault (Log × FileSystem) Path :=
  fun (log, fs) =>
    match target fs limit directory log.current with
    | .ok p => .ok p ({ log with current := some p }, fs)
    | .error e => .error (.file e) (log, fs)

def write (p : Path) (text : String) : EStateM Fault (Log × FileSystem) Unit := fun (log, fs) =>
  match fs.append p (Text.Utf8.encode (text ++ "\n")) with
  | .ok fs => .ok () (log, fs)
  | .error e => .error (.file e) (log, fs)

/-- Appends an event and tells the file that it went into. The clock is read twice: for the
time stamp, and for the day whose directory the file is in. -/
def appendAt (project : Project) (stamp now : DateTime) (event : Value) :
    EStateM Fault (Log × FileSystem) Path := do
  let text ← lookUp (line stamp event)
  let root ← fun s => lookUp (s.1.root project) s
  let directory := root.child (dayName now.date)
  makeDirectory directory
  let limit ← fun s => lookUp (s.1.sizeLimit project) s
  let p ← choose limit directory
  write p text
  return p

/-- Appends an event while the clock stands. -/
def append (project : Project) (now : DateTime) (event : Value) :
    EStateM Fault (Log × FileSystem) Path :=
  appendAt project now now event

def sink (project : Project) (now : DateTime) (runId : String) : Sink Log where
  emit e := fun s =>
    match append project now (.record (e.fields runId)) s with
    | .ok _ s => .ok () s
    | .error f s => .error (.fault f) s

end Log

end CallPlan
