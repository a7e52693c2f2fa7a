import CallPlan.Cli.Machine
import CallPlan.Cli.Program
import CallPlan.Service.Client

/-!
# The command line

What a command may need of the machine is read first: the environment, the clock, the
configuration, the plan, the files that its payloads name, and the log files of the
day. The command is performed on that, and the files that it changed are written.

There is no session to call services with, so no service is known: a plan can be
checked, and a run ends before its first call with the failure that names the service.
-/

namespace CallPlan.Cli

def emptySession : Session Unit where
  client _ := pure none
  operation := id

def gateway : Gateway (Pool Unit) where
  name := "session"
  connect s := pure (Pool.binder emptySession s)

def fileOf? (args : List String) : Option Path :=
  match request args with
  | .ok (.run file _) | .ok (.check file) => some (.ofText file)
  | .error _ => none

/-- The directory of the log that a command line chooses. -/
def logOf (args : List String) : Log :=
  match request args with
  | .ok (.run _ o) =>
    match Settings.usableText? o.logDirectory with
    | some d => .configured (.ofText d) none
    | none => .unconfigured
  | _ => .unconfigured

/-- What can be read at a path: a file, a directory, or nothing. -/
def look (p : Path) : IO (Option Entry) := do
  match ← (IO.FS.readBinFile p.text).toBaseIO with
  | .ok bytes => return some (.file 0o644 bytes.toList)
  | .error (.noFileOrDirectory ..) => return none
  | .error _ => return some (.directory 0o755)

def fetch (fs : FileSystem) (p : Path) : IO FileSystem := do
  match ← look p with
  | some e => return (fs.install p e).toOption.getD fs
  | none => return fs

/-- The files with the log files of a directory, numbered from `n` on, up to the first
that is missing. -/
def fetchLog (directory : Path) : (steps n : Nat) → FileSystem → IO FileSystem
  | 0, _, fs => return fs
  | steps + 1, n, fs => do
    let p := directory.child (Log.fileName n)
    match ← look p with
    | some e => fetchLog directory steps (n + 1) ((fs.install p e).toOption.getD fs)
    | none => return fs

def fetchProject (environ : Environment) (fs : FileSystem) : IO FileSystem := do
  match Project.file? environ.get? with
  | some p => fetch fs p
  | none => return fs

def fetchAll (project : Project) (now : DateTime) (args : List String) (fs : FileSystem) :
    IO FileSystem := do
  match fileOf? args with
  | none => return fs
  | some file =>
    let mut fs ← fetch fs file
    if let .ok plan := Plan.load fs file then
      for raw in plan.paths do
        fs ← fetch fs (.ofText raw)
    match (logOf args).root project with
    | .ok root => fetchLog (root.child (Log.dayName now.date)) 1000 0 fs
    | .error _ => return fs

def store (before after : FileSystem) : IO Unit := do
  for (l, e) in after.entries do
    if before.at? l ≠ some e then
      let p : Path := ⟨.single, l⟩
      match e with
      | .directory _ => IO.FS.createDirAll p.text
      | .file _ content => IO.FS.writeBinFile p.text ⟨content.toArray⟩

def systemFile (name : String) : IO (List UInt8) := do
  match ← look (.ofText name) with
  | some (.file _ bytes) => return bytes
  | _ => return []

def runProgram (args : List String) : IO UInt32 := do
  let environ := environmentOf (← systemFile "/proc/self/environ")
  let now := timeOf (← systemFile "/proc/stat") (← systemFile "/proc/uptime")
  let runId := Run.idOfNumber (← IO.rand 0 0xffffffffffff)
  let here := Path.ofText (← IO.currentDir).toString
  let files := (FileSystem.empty.makeDirectories here).toOption.getD .empty
  let files ← fetchProject environ { files with working := here.parts }
  let project := Project.shipped.inEnvironment environ.get? files
  let files ← fetchAll project now args files
  let surroundings : Surroundings (Pool Unit) :=
    ⟨environ, project, gateway, now, runId, fun _ => 0⟩
  match perform surroundings args (Run.World.start (.start ()) .unconfigured files) with
  | .ok output w =>
    store files w.files
    IO.print output.printed
    return output.exitCode.toUInt32
  | .error h w =>
    store files w.files
    IO.eprintln h.message
    return 1

end CallPlan.Cli

def main (args : List String) : IO UInt32 :=
  CallPlan.Cli.runProgram args
