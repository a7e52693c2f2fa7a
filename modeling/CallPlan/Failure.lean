import CallPlan.File.System
import CallPlan.Value.Canonical
import CallPlan.Value.Pairs

/-!
# Failures and faults

A failure is a reported error: a cause, and where one parameter is to blame, the
path to it. Each cause has a stable dotted code, a detail in words, and belongs to
one of six kinds. Causes that this library knows are constructors of their own;
services and binders may report others.

A fault is any other error: a value that has no canonical text, an integer that is
too long, a file operation, an unusable setting, or an error that a collaborator raises
without reporting it.
-/

namespace CallPlan

/-! ## Findings -/

/-- How much a finding matters. -/
inductive Severity
  | error
  | warning
  deriving DecidableEq, Repr

/-- A finding about a command file, with the path of the place it is about. -/
structure Issue where
  severity : Severity
  code : String
  message : String
  path : String
  deriving DecidableEq, Repr

/-- The findings of a check, errors and warnings apart. -/
structure Report where
  errors : List Issue
  warnings : List Issue
  deriving DecidableEq, Repr

def Report.ok (r : Report) : Bool :=
  r.errors.isEmpty

def Report.ofIssues (issues : List Issue) : Report where
  errors := issues.filter (·.severity = .error)
  warnings := issues.filter (·.severity = .warning)

/-- An expected property that a result does not have. The texts are canonical; a
missing property has none. -/
structure Mismatch where
  name : Value
  expected : String
  actual : Option String
  deriving BEq, Repr

/-! ## Failures -/

namespace Failure

/-- The part of the program that a failure belongs to. -/
inductive Kind
  | command
  | resolution
  | resource
  | invocation
  | expectation
  | config
  deriving DecidableEq, Repr

def Kind.name : Kind → String
  | .command => "CommandError"
  | .resolution => "ResolutionError"
  | .resource => "ResourceError"
  | .invocation => "InvocationError"
  | .expectation => "ExpectationError"
  | .config => "ConfigError"

/-- What went wrong. -/
inductive Cause
  | malformed (body : String)
  | unterminated (rest : String)
  | unset (name : String)
  | unpublished (id : String)
  | missingField (place name : String)
  | notSequence (place : String)
  | badIndex (place index : String)
  | outOfRange (place : String) (index length : Nat)
  | noMatch (place key wanted : String)
  | nullValue
  | binaryValue (fault : Text.Utf8.Fault)
  | unrenderable (kind : Value.Kind) (error : Canonical.Error)
  | emptyPath (payload : String)
  | payloadMissing (path : Path)
  | duplicateEntry (name : String)
  | payloadUnreadable (error : FileError)
  | callFailed (capability message : String)
  | unregistered (capability : String)
  | duplicateId (id : String)
  | mismatch (id : String) (mismatches : List Mismatch)
  | planMissing (path : Path)
  | planUnreadable (path : Path) (cause : FileError.Cause)
  | badJson (path : Path)
  | badToml (path : Path)
  | invalidPlan (report : Report)
  | duplicateCapability (capability : String)
  | bindFailed (capability message : String)
  | sessionFailed (message : String)
  | unknownService (objectType service : String)
  | unknownOperation (capability operation : String)
  | other (kind : Kind) (code : String) (detail : Option String)
  deriving BEq, Repr

namespace Cause

def kind : Cause → Kind
  | .malformed _ | .unterminated _ | .unset _ | .unpublished _ | .missingField ..
  | .notSequence _ | .badIndex .. | .outOfRange .. | .noMatch .. | .nullValue
  | .binaryValue _ | .unrenderable .. | .emptyPath _ => .resolution
  | .payloadMissing _ | .duplicateEntry _ | .payloadUnreadable _ => .resource
  | .callFailed .. | .unregistered _ => .invocation
  | .duplicateId _ => .command
  | .mismatch .. => .expectation
  | .planMissing _ | .planUnreadable .. | .badJson _ | .badToml _ | .invalidPlan _
  | .duplicateCapability _ | .bindFailed .. | .sessionFailed _ | .unknownService ..
  | .unknownOperation .. => .config
  | .other kind .. => kind

def code : Cause → String
  | .malformed _ => "directive.malformed"
  | .unterminated _ => "directive.unterminated"
  | .unset _ => "env.missing"
  | .unpublished _ => "result.unpublished"
  | .missingField .. => "result.missing_field"
  | .notSequence _ => "result.not_a_sequence"
  | .badIndex .. => "result.bad_index"
  | .outOfRange .. => "result.index_out_of_range"
  | .noMatch .. => "result.no_match"
  | .nullValue => "result.null_value"
  | .binaryValue _ => "result.binary_value"
  | .unrenderable .. => "result.unrenderable"
  | .emptyPath _ => "payload.empty_path"
  | .payloadMissing _ => "payload.not_found"
  | .duplicateEntry _ => "payload.duplicate_entry"
  | .payloadUnreadable _ => "payload.unreadable"
  | .callFailed .. => "invoke.failed"
  | .unregistered _ => "capability.unregistered"
  | .duplicateId _ => "store.duplicate_results_id"
  | .mismatch .. => "expectation.mismatch"
  | .planMissing _ => "config.not_found"
  | .planUnreadable .. => "config.unreadable"
  | .badJson _ => "config.bad_json"
  | .badToml _ => "config.bad_toml"
  | .invalidPlan _ => "config.invalid"
  | .duplicateCapability _ => "registry.duplicate"
  | .bindFailed .. => "registry.bind_failed"
  | .sessionFailed _ => "aws.session_failed"
  | .unknownService .. => "aws.unknown_service"
  | .unknownOperation .. => "aws.unknown_operation"
  | .other _ code _ => code

/-- The first three errors of a report, and a sign that there are more. -/
def reportSummary (errors : List Issue) : String :=
  ", ".intercalate ((errors.take 3).map fun i => i.path ++ ": " ++ i.message) ++
    (if errors.length > 3 then ", …" else "")

def detail : Cause → Option String
  | .malformed body => some ("\x7b" ++ body ++ "\x7d (write '\x7b!' for a literal brace)")
  | .unterminated rest => some rest
  | .unset name => some name
  | .unpublished id => some id
  | .missingField place name => some (place ++ "." ++ name)
  | .notSequence place => some place
  | .badIndex place index => some (place ++ "[" ++ index ++ "]")
  | .outOfRange place index length => some s!"{place}[{index}] (length {length})"
  | .noMatch place key wanted => some (place ++ "[$" ++ key ++ "$" ++ wanted ++ "]")
  | .nullValue => none
  | .binaryValue fault => some fault.message
  | .unrenderable kind error => some (kind.name ++ ": " ++ error.message)
  | .emptyPath payload => some payload
  | .payloadMissing path => some path.text
  | .duplicateEntry name => some name
  | .payloadUnreadable error => some (error.path.text ++ ": " ++ error.cause.message)
  | .callFailed capability message => some (capability ++ ": " ++ message)
  | .unregistered capability => some capability
  | .duplicateId id => some id
  | .mismatch id ms => some (id ++ ": " ++ ", ".intercalate (ms.map (·.name.plain)))
  | .planMissing path => some path.text
  | .planUnreadable path cause => some (path.text ++ ": " ++ cause.message)
  | .badJson path => some (path.text ++ ": no JSON document")
  | .badToml path => some (path.text ++ ": no TOML document")
  | .invalidPlan report => some (reportSummary report.errors)
  | .duplicateCapability capability => some capability
  | .bindFailed capability message => some (capability ++ ": " ++ message)
  | .sessionFailed message => some message
  | .unknownService objectType service => some (objectType ++ " (" ++ service ++ ")")
  | .unknownOperation capability operation => some (capability ++ " (" ++ operation ++ ")")
  | .other _ _ detail => detail

def mismatches? : Cause → Option (List Mismatch)
  | .mismatch _ ms => some ms
  | _ => none

def report? : Cause → Option Report
  | .invalidPlan report => some report
  | _ => none

end Cause

end Failure

/-- A reported error. -/
structure Failure where
  cause : Failure.Cause
  path : Option String
  deriving BEq, Repr

namespace Failure

def of (cause : Cause) : Failure :=
  ⟨cause, none⟩

/-- The failure with the path of a parameter, unless it has one already. -/
def located (path : String) (f : Failure) : Failure :=
  { f with path := f.path.or (some path) }

def kind (f : Failure) : Kind := f.cause.kind

def code (f : Failure) : String := f.cause.code

def detail (f : Failure) : Option String := f.cause.detail

def place? (f : Failure) : Option String :=
  f.path.filter (· ≠ "")

def message (f : Failure) : String :=
  let head := match f.detail with
    | none => f.code
    | some d => f.code ++ ":" ++ d
  match f.place? with
  | none => head
  | some p => head ++ " (at " ++ p ++ ")"

@[simp] theorem cause_of (c : Cause) : (of c).cause = c := rfl

@[simp] theorem path_of (c : Cause) : (of c).path = none := rfl

@[simp] theorem cause_located (p : String) (f : Failure) : (f.located p).cause = f.cause := rfl

@[simp] theorem path_located_of (p : String) (c : Cause) : ((of c).located p).path = some p := rfl

end Failure

/-! ## Faults -/

namespace Fault

/-- The family of an error that is not reported as a failure. -/
inductive Family
  | system
  | type
  | value
  | key
  | overflow
  | runtime
  deriving DecidableEq, Repr

end Fault

/-- An error outside the vocabulary of failures. -/
inductive Fault
  /-- A value has no canonical text. -/
  | canonical (error : Canonical.Error)
  /-- An integer is too long to be written. -/
  | longInteger
  /-- Digits are too many to be read as an integer. -/
  | longNumeral (digits : Nat)
  /-- The working directory is not there any more. -/
  | noWorkingDirectory
  /-- A file operation failed. -/
  | file (error : FileError)
  /-- The project configuration is no TOML text. -/
  | badSettings
  /-- The project configuration has no value at a path. -/
  | missingSetting (path : String)
  /-- A setting is of a kind that cannot be used. -/
  | settingKind
  /-- A setting is a text that writes no number. -/
  | settingText
  /-- A setting that has to be whole is undefined. -/
  | undefinedInteger
  /-- A setting that has to be whole is infinite. -/
  | infiniteInteger
  /-- A setting is too large for a binary number. -/
  | hugeNumber
  /-- The keys of a mapping cannot be sorted or written. -/
  | mixedKeys
  /-- A failed expectation has a name that is no text. -/
  | expectationName
  /-- A value that has to stand for a mapping does not. -/
  | pairs (error : Value.PairError)
  /-- An operation is called with a parameter whose name is no text. -/
  | unnamedParameter
  /-- A collaborator raises an error. -/
  | raised (family : Fault.Family) (message : String)
  deriving BEq, Repr

namespace Fault

def family : Fault → Family
  | .canonical .notFinite | .canonical .longInteger => .value
  | .canonical (.unsupported _) => .type
  | .longInteger | .longNumeral _ => .value
  | .noWorkingDirectory => .system
  | .file e => if e.cause = .nullCharacter then .value else .system
  | .badSettings | .settingText | .undefinedInteger => .value
  | .missingSetting _ => .key
  | .pairs (.partCount ..) => .value
  | .pairs _ => .type
  | .settingKind | .mixedKeys | .expectationName | .unnamedParameter => .type
  | .infiniteInteger | .hugeNumber => .overflow
  | .raised family _ => family

def message : Fault → String
  | .canonical error => error.message
  | .longInteger => Numeral.tooLong none
  | .longNumeral digits => Numeral.tooLong (some digits)
  | .noWorkingDirectory => "[Errno 2] No such file or directory"
  | .file error => error.message
  | .badSettings => "the configuration is no TOML document"
  | .missingSetting path => Text.Quoted.text ("Configuration path '" ++ path ++ "' not found")
  | .settingKind => "the setting has a value of the wrong kind"
  | .settingText => "the setting writes no number"
  | .undefinedInteger => "cannot convert float NaN to integer"
  | .infiniteInteger => "cannot convert float infinity to integer"
  | .hugeNumber => "int too large to convert to float"
  | .mixedKeys => "the keys of a mapping cannot be put in order"
  | .expectationName => "the name of an expected property is no text"
  | .pairs error => error.message
  | .unnamedParameter => "keywords must be strings"
  | .raised .key message => Text.Quoted.text message
  | .raised _ message => message

end Fault

/-- What ends a step early: a failure or a fault. -/
inductive Halt
  | failure (f : Failure)
  | fault (f : Fault)
  deriving BEq, Repr

namespace Halt

def cause (c : Failure.Cause) : Halt :=
  .failure (.of c)

@[simp] theorem cause_inj {c c' : Failure.Cause} : cause c = cause c' ↔ c = c' := by
  simp [cause, Failure.of]

@[simp] theorem cause_ne_fault {c : Failure.Cause} {f : Fault} : cause c ≠ .fault f := nofun

@[simp] theorem fault_ne_cause {c : Failure.Cause} {f : Fault} : .fault f ≠ cause c := nofun

def message : Halt → String
  | .failure f => f.message
  | .fault f => f.message

/-- A failure gets the path of a parameter; a fault is left as it is. -/
def located (path : String) : Halt → Halt
  | .failure f => .failure (f.located path)
  | .fault f => .fault f

end Halt

/-! ## Summaries -/

namespace Failure

def mismatchValue (m : Mismatch) : Value :=
  .record [
    ("name", m.name),
    ("expected", .text m.expected),
    ("actual", m.actual.elim .null .text)]

def describe (f : Failure) : Value :=
  .record (
    [("type", .text f.kind.name), ("message", .text f.message), ("code", .text f.code)] ++
    (f.place?.map fun p => ("path", Value.text p)).toList ++
    (f.cause.mismatches?.map fun ms => ("mismatches", Value.list (ms.map mismatchValue))).toList)

end Failure

end CallPlan
