import CallPlan.Plan.Basic
import CallPlan.Template.Resolution

/-!
# Checking references

Before a plan runs, its templates can be checked against each other: that they can be
read, that every reference names a result of an earlier command, that variables are set
and that files are there. A reference whose id depends on a variable cannot be checked,
which is a warning, and so are variables that are not set and files that are missing.
-/

namespace CallPlan.Plan

/-! ## Texts with their places -/

mutual

def texts (place : String) : Value → List (String × String)
  | .text s => [(place, s)]
  | .list xs => itemTexts place 0 xs
  | .tuple xs => itemTexts place 0 xs
  | .map es => entryTexts place es
  | _ => []

/-- The texts in the items of a sequence, from an index on. -/
def itemTexts (place : String) : (index : Nat) → List Value → List (String × String)
  | _, [] => []
  | n, x :: xs => texts (Place.item place n) x ++ itemTexts place (n + 1) xs

/-- The texts in the values of entries. All keys are written like names. -/
def entryTexts (place : String) : List (Value × Value) → List (String × String)
  | [] => []
  | (k, x) :: es => texts (Place.field place k.plain) x ++ entryTexts place es

end

/-! ## One text -/

/-- What the references of a command are checked against. -/
structure Context where
  /-- The id of the command itself. -/
  own : String
  /-- The ids of the commands before it. -/
  published : List String
  /-- The ids of all commands, with their indices. -/
  declared : List (String × Nat)
  /-- The variables that are set, if that is known. -/
  environ : Option (String → Option String)
  files : FileSystem
  base : Path

def idIssue? (c : Context) (place id : String) : Option Issue :=
  let shown := Text.Quoted.text id
  if '%' ∈ id.toList then
    some ⟨.warning, "reference.dynamic", s!"resultsID {shown} depends on the environment", place⟩
  else if id = c.own then
    some ⟨.error, "reference.self", s!"command references its own result {shown}", place⟩
  else if id ∈ c.published then none
  else
    match Fields.get? id c.declared with
    | some index =>
      some ⟨.error, "reference.forward", s!"{shown} is published later, by command {index}", place⟩
    | none => some ⟨.error, "reference.unknown", s!"no command publishes {shown}", place⟩

def tokenIssue? (c : Context) (place : String) : Token → Option Issue
  | .literal _ => none
  | .env name _ =>
    match c.environ with
    | none => none
    | some environ =>
      if (environ name).isSome then none
      else some ⟨.warning, "env.unset", s!"environment variable {name} is not set", place⟩
  | .reference r => idIssue? c place r.id

def causeIssue (place : String) (cause : Failure.Cause) : Issue :=
  ⟨.error, cause.code, cause.detail.getD cause.code, place⟩

def fileIssues (c : Context) (place : String) : List String → Except FileError (List Issue)
  | [] => .ok []
  | raw :: raws => do
    let p := (Path.ofText raw).under c.base
    let there ← c.files.exists? p
    let rest ← fileIssues c place raws
    return if there then rest
      else ⟨.warning, "payload.missing", p.text ++ " does not exist", place⟩ :: rest

/-- The findings about the payload that a text is, if it has no markers. -/
def payloadIssues (c : Context) (place text : String) : Except FileError (List Issue) :=
  if Template.hasMarkers text then .ok []
  else
    match Payload.paths? text with
    | .error cause => .ok [causeIssue place cause]
    | .ok none => .ok []
    | .ok (some raws) => fileIssues c place raws

def textIssues (c : Context) (place text : String) : Except FileError (List Issue) :=
  match Template.tokenize text with
  | .error cause => .ok [causeIssue place cause]
  | .ok ts => do return ts.filterMap (tokenIssue? c place) ++ (← payloadIssues c place text)

mutual

/-- The findings about the texts in a value. The check ends at a key that cannot be
written, since it stands in the places of what is behind it. -/
def valueFindings (c : Context) (place : String) : Value → Except Fault (List Issue)
  | .text s => (textIssues c place s).mapError .file
  | .list xs => itemFindings c place 0 xs
  | .tuple xs => itemFindings c place 0 xs
  | .map es => entryFindings c place es
  | _ => .ok []

/-- The findings about the items of a sequence, from an index on. -/
def itemFindings (c : Context) (place : String) : (index : Nat) → List Value →
    Except Fault (List Issue)
  | _, [] => .ok []
  | n, x :: xs => do
    let issues ← valueFindings c (Place.item place n) x
    let rest ← itemFindings c place (n + 1) xs
    return issues ++ rest

def entryFindings (c : Context) (place : String) : List (Value × Value) →
    Except Fault (List Issue)
  | [] => .ok []
  | (k, x) :: es => do
    if k.isWritable then
      let issues ← valueFindings c (Place.field place k.plain) x
      let rest ← entryFindings c place es
      return issues ++ rest
    else .error .longInteger

end

/-! ## Whole plans -/

def paramsPlace (index : Nat) : String :=
  Place.field (Place.item (Place.field Place.top "commands") index) "params"

/-- The findings about commands, of which the first one has a given index. The context
is that of the first one but for its own id. -/
def commandsFindings (c : Context) : (index : Nat) → List Command →
    Except Fault (List Issue)
  | _, [] => .ok []
  | n, cmd :: cmds => do
    let issues ← valueFindings { c with own := cmd.id } (paramsPlace n) cmd.params
    let rest ← commandsFindings { c with published := cmd.id :: c.published } (n + 1) cmds
    return issues ++ rest

def declaredIds (cmds : List Command) : List (String × Nat) :=
  cmds.zipIdx.map fun (cmd, n) => (cmd.id, n)

/-- Checks the references of a plan without calling anything. Without an environment no
variable counts as missing. Paths begin in a directory that is given, else in the working
directory. -/
def checkReferences (environ : Option (String → Option String)) (files : FileSystem)
    (base : Option Path) (p : Plan) : Except Fault Report := do
  let base ← files.baseOr base
  let issues ← commandsFindings ⟨"", [], declaredIds p.commands, environ, files, base⟩ 0 p.commands
  return .ofIssues issues

/-! ## Files -/

def payloadPaths (text : String) : List String :=
  match Payload.paths? text with
  | .ok (some raws) => raws
  | _ => []

/-- The paths that the payloads of a plan name. Texts with markers are left out, since
what they name depends on the run. -/
def paths (p : Plan) : List String :=
  p.commands.flatMap fun c =>
    (texts Place.top c.params).flatMap fun (_, text) =>
      if Template.hasMarkers text then [] else payloadPaths text

end CallPlan.Plan
