import CallPlan.Failure
import CallPlan.Toml.Reader

/-!
# The project configuration

A project may have a configuration, a TOML document. Every setting has a default of
its own, so a project without a configuration works as well; but a document that
cannot be read makes every look at a setting fail. A variable of the environment may
name the file of the configuration; otherwise the one holds that comes with the
program.
-/

namespace CallPlan

/-- The configuration of a project. -/
inductive Project
  /-- The table of a readable document. -/
  | settings (table : Toml.Members)
  /-- There is a document, but it cannot be read. -/
  | unreadable (fault : Fault)
  deriving BEq, Repr

namespace Project

def ofText (s : String) : Project :=
  match Toml.ofText s with
  | .ok table => .settings table
  | .error .malformed => .unreadable .badSettings
  | .error (.longNumeral digits) => .unreadable (.longNumeral digits)

def bare : Project := .settings []

/-- The part of a configuration that a row of keys leads to. -/
def find? : List String → Toml → Option Toml
  | [], x => some x
  | key :: keys, .table ms => (Fields.get? key ms).bind (find? keys)
  | _ :: _, _ => none

def keys (path : String) : List String :=
  (Path.pieces '.' path.toList).map String.ofList

/-- The setting at a path. Where there is none, the default stands in for it; a null is
no default. -/
def setting (p : Project) (path : String) (default : Value) : Except Fault Value :=
  match p with
  | .unreadable fault => .error fault
  | .settings table =>
    match find? (keys path) (.table table) with
    | some x => .ok (.ofToml x)
    | none => if default.kind = .null then .error (.missingSetting path) else .ok default

def shipped : Project :=
  .settings [
    ("invoker", .table [
      ("connect_timeout_s", .int 10),
      ("read_timeout_s", .int 60),
      ("max_attempts", .int 1)]),
    ("log", .table [("dir", .text "logs/runs"), ("max_bytes", .int 104857600)]),
    ("payload", .table [("archive_extensions", .list [.text ".zip", .text ".jar"])])]

def ofBytes (bytes : List UInt8) : Project :=
  match Text.Utf8.decodeText bytes with
  | .ok s => ofText s
  | .error _ => .unreadable .badSettings

/-- The configuration in a file. A file that is missing is as good as an empty one. -/
def read (fs : FileSystem) (p : Path) : Project :=
  match fs.exists? p, fs.read p with
  | .ok false, _ => bare
  | .ok true, .ok bytes => ofBytes bytes
  | .ok true, .error e | .error e, _ => .unreadable (.file e)

/-- The file of the configuration, if the environment names one. -/
def file? (environ : String → Option String) : Option Path :=
  ((environ "INVOKER_CONFIG_FILE").filter (· ≠ "")).map Path.ofText

/-- The configuration that holds in an environment: the one in the file that it names, else
the one given. -/
def inEnvironment (given : Project) (environ : String → Option String) (fs : FileSystem) :
    Project :=
  match file? environ with
  | some p => read fs p
  | none => given

/-- A default answers for every path that a readable configuration does not have. -/
theorem setting_of_find?_eq_none {table : Toml.Members} {path : String} {default : Value}
    (h : find? (keys path) (.table table) = none) (hd : default.kind ≠ .null) :
    (settings table).setting path default = .ok default := by
  simp [setting, h, hd]

/-! ## Numbers in settings

A setting holds a number or a text that writes one. Truth values count as zero and one,
and a real number is cut to a whole one. -/

def wholeNumber : Value → Except Fault Int
  | .int n => .ok n
  | .bool b => .ok (if b then 1 else 0)
  | .float x =>
    match x.truncate? with
    | some n => .ok n
    | none => .error (if x = .nan then .undefinedInteger else .infiniteInteger)
  | .text s =>
    match Numeral.int? s with
    | some n => .ok n
    | none => .error .settingText
  | _ => .error .settingKind

def realNumber : Value → Except Fault Binary64
  | .int n =>
    match Binary64.ofInt? n with
    | some x => .ok x
    | none => .error .hugeNumber
  | .bool b => .ok (.ofDecimal false (if b then 1 else 0) 0)
  | .float x => .ok x
  | .text s =>
    match Numeral.binary64? s with
    | some x => .ok x
    | none => .error .settingText
  | _ => .error .settingKind

/-- The setting is not usable as a number. A number that is too large for its kind is no
such setting. -/
def isUnusable (f : Fault) : Bool :=
  f.family ∈ [.type, .value]

end Project

end CallPlan
