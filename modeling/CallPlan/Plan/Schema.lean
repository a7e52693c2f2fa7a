import CallPlan.Plan.Basic
import CallPlan.Sorting
import CallPlan.Value.Place

/-!
# The form of a plan document

A plan document is a mapping with a list under `commands`. Each command is a mapping
whose object type and method are texts that are not empty and whose result id can stand
in a reference: it is not empty and has neither points nor brackets nor braces. The
parameters and the expected properties are mappings where they are given. Versions,
where they are given, are a mapping to texts that are not empty.

Where a document has another form, each deviation is a finding. Only a document of this
form is checked for result ids that occur twice.

How a deviation is worded is up to the validator that is used, which is not part of this library.
The wording here is assumed: it is that of a common validator. What the findings are and where they
are does not depend on it.
-/

namespace CallPlan.Plan

def violation (place message : String) : Issue :=
  ⟨.error, "schema.violation", message, place⟩

def wrongType (place : String) (v : Value) (type : String) : Issue :=
  violation place (v.literal ++ " is not of type " ++ Text.Quoted.text type)

def missing (place name : String) : Issue :=
  violation place (Text.Quoted.text name ++ " is a required property")

def breaksId (c : Char) : Bool :=
  c ∈ ['.', '[', ']', '\x7b', '\x7d']

def isId (s : String) : Bool :=
  s ≠ "" && !s.toList.any breaksId

def idPattern : String :=
  Text.Quoted.text "^[^.\\[\\]\x7b\x7d]+$"

def nonEmptyIssues (place : String) (v : Value) : List Issue :=
  match v with
  | .text s => if s = "" then [violation place (v.literal ++ " should be non-empty")] else []
  | _ => [wrongType place v "string"]

def idIssues (place : String) (v : Value) : List Issue :=
  match v with
  | .text s =>
    if isId s then [] else [violation place (v.literal ++ " does not match " ++ idPattern)]
  | _ => [wrongType place v "string"]

def mappingIssues (place : String) (v : Value) : List Issue :=
  match v with
  | .map _ => []
  | _ => [wrongType place v "object"]

def fieldIssues (check : String → Value → List Issue) (place name : String)
    (es : List (Value × Value)) : List Issue :=
  match Value.lookup? name es with
  | some v => check (Place.field place name) v
  | none => []

def missingIssues (place : String) (names : List String) (es : List (Value × Value)) :
    List Issue :=
  (names.filter fun name => (Value.lookup? name es).isNone).map (missing place)

def commandIssues (place : String) (v : Value) : List Issue :=
  match v with
  | .map es =>
    missingIssues place ["objectType", "method", "resultsID"] es ++
      fieldIssues nonEmptyIssues place "objectType" es ++
      fieldIssues nonEmptyIssues place "method" es ++
      fieldIssues mappingIssues place "params" es ++
      fieldIssues idIssues place "resultsID" es ++
      fieldIssues mappingIssues place "expectedResults" es
  | _ => [wrongType place v "object"]

/-- What is wrong with commands, of which the first one has a given index. -/
def itemIssues (place : String) : (index : Nat) → List Value → List Issue
  | _, [] => []
  | n, v :: vs => commandIssues (Place.item place n) v ++ itemIssues place (n + 1) vs

def commandsIssues (place : String) (v : Value) : List Issue :=
  match v with
  | .list vs => itemIssues place 0 vs
  | _ => [wrongType place v "array"]

/-- The place of a version in the mapping of versions. Under the null key it is that of the
mapping. -/
def versionPlace (place : String) (key : Value) : String :=
  match key with
  | .null => place
  | _ => Place.entry place key

def versionsIssues (place : String) (v : Value) : List Issue :=
  match v with
  | .map es => es.flatMap fun (k, x) => nonEmptyIssues (versionPlace place k) x
  | _ => [wrongType place v "object"]

def documentIssues (v : Value) : List Issue :=
  match v with
  | .map es =>
    missingIssues Place.top ["commands"] es ++
      fieldIssues versionsIssues Place.top "apiVersions" es ++
      fieldIssues commandsIssues Place.top "commands" es
  | _ => [wrongType Place.top v "object"]

/-- Findings in the order of their places. Findings about one place keep their order. -/
def byPlace (issues : List Issue) : List Issue :=
  Sorting.sort (fun a b => Sorting.textLe a.path b.path) issues

/-! ## Result ids that occur twice -/

def textField (v : Value) (name : String) : String :=
  match v.field? name with
  | some (.text s) => s
  | _ => ""

def commandValues (v : Value) : List Value :=
  match v.field? "commands" with
  | some (.list vs) => vs
  | _ => []

/-- A result id occurs a second time. -/
def duplicate (index : Nat) (id : String) (first : Nat) : Issue :=
  ⟨.error, "command.duplicate_results_id",
    s!"resultsID {Text.Quoted.text id} already used by command {first}",
    Place.field (Place.item (Place.field Place.top "commands") index) "resultsID"⟩

/-- The result ids that occur among those before them, which are given with the indices
of the commands that have them first. -/
def duplicateIssues : (seen : List (String × Nat)) → (index : Nat) → List String → List Issue
  | _, _, [] => []
  | seen, n, id :: ids =>
    match Fields.get? id seen with
    | some first => duplicate n id first :: duplicateIssues seen (n + 1) ids
    | none => duplicateIssues (seen ++ [(id, n)]) (n + 1) ids

/-- The list of commands is empty. -/
def emptyIssue : Issue :=
  ⟨.warning, "commands.empty", "command list is empty", Place.field Place.top "commands"⟩

def contentIssues (v : Value) : List Issue :=
  (if (commandValues v).isEmpty then [emptyIssue] else []) ++
    duplicateIssues [] 0 ((commandValues v).map (textField · "resultsID"))

def validate (v : Value) : Report :=
  match documentIssues v with
  | [] => .ofIssues (contentIssues v)
  | issues => .ofIssues (byPlace issues)

end CallPlan.Plan
