import EntitySchema.Command.Directory
import EntitySchema.Command.Help
import EntitySchema.Configuration.Load
import EntitySchema.CreateInput.Preparation
import EntitySchema.Model.DeclarationJson
import EntitySchema.Sdl.Grammar
import EntitySchema.Search.Migration
import EntitySchema.Search.Store
import EntitySchema.Text.Table
import EntitySchema.UpdateInput.Synthesis

/-!
Running a command line. A run reads its surroundings and says what to print and what to write; it
does neither itself.
-/

namespace EntitySchema.Command

open Search (Migration MigrationError SnapshotFault Store)
open Text (Table)

/-- What a run finds: files by path, the standard input, environment variables, and what is needed
to create documents. -/
structure Surroundings where
  file : String → Except ReadFault String
  input : Except ReadFault String
  environment : List (String × String)
  creation : Creation

namespace Surroundings

def valueOf? (s : Surroundings) (name : String) : Option String :=
  (s.environment.find? (·.1 == name)).map (·.2)

def content (s : Surroundings) (path : String) : Configuration.FileContent :=
  match s.file path with
  | .ok text => .text text
  | .error .missing | .error .notDirectory | .error .nameTooLong => .absent
  | .error .isDirectory => .directory
  | .error (.unreadable _) => .unreadable

end Surroundings

inductive Failure where
  | configuration (e : Configuration.LoadError)
  | file (path : String) (fault : ReadFault)
  | input (fault : ReadFault)
  | model (path : String) (e : ModelTextError)
  | schema
  | synthesis (e : SynthesisError)
  | createInput (e : InputError)
  | payloadText (fault : Json.Fault)
  | payload (e : Preparation.Error)
  | snapshot (path : String) (fault : SnapshotFault)
  | planning (e : MigrationError)
  deriving Repr

def Failure.message : Failure → String
  | .configuration e => e.message
  | .file path fault => "Failed to read file: " ++ path ++ ": " ++ fault.message
  | .input fault => "Failed to read from stdin: " ++ fault.message
  | .model path e => "Invalid model: " ++ path ++ ": " ++ e.message
  | .schema => "Invalid schema: malformed schema text"
  | .synthesis e => e.message
  | .createInput e => e.message
  | .payloadText fault => "Invalid payload JSON: " ++ fault.message
  | .payload e => e.message
  | .snapshot path (.unreadable fault) =>
    "Invalid store snapshot: " ++ path ++ ": " ++ fault.message
  | .snapshot path .notAnObject => "Invalid store snapshot: " ++ path ++ ": expected a JSON object"
  | .planning e => "Failed to plan search view migrations: " ++ e.message

structure Save where
  path : String
  text : String
  notice : String
  deriving DecidableEq, Repr

inductive Outcome where
  /-- The output is one text, closed by a line end. -/
  | done (output : String) (save : Option Save)
  | failed (reason : Failure)
  | stopped (reason : Stop)
  deriving Repr

/-- The exit code. A run that exhausts the stack is killed and has none. -/
def Outcome.exitCode : Outcome → Option Nat
  | .done .. => some 0
  | .failed (.payload (.prepare .endless)) => none
  | .failed _ => some 1
  | .stopped (.refused _) => some 2
  | .stopped _ => some 0

def Outcome.save? : Outcome → Option Save
  | .done _ save => save
  | _ => none

def Outcome.output (config? : Option String) : Outcome → String
  | .done output _ => output ++ "\n"
  | .stopped (.help topic) => topic.text config?
  | .stopped .version => versionText ++ "\n"
  | .failed _ | .stopped (.refused _) => ""

/-- What goes to the standard error, provided that the file is written. Without any argument that
is the help. -/
def Outcome.notice (config? : Option String) : Outcome → String
  | .done _ save => save.elim "" fun save => "✓ " ++ save.notice ++ "\n"
  | .failed reason => "✗ " ++ reason.message ++ "\n"
  | .stopped (.refused .nothingGiven) => HelpTopic.program.text config?
  | .stopped (.refused reason) => "error: " ++ reason.message ++ "\n"
  | .stopped _ => ""

/-! ### The tables in which results are reported -/

def migrationKind : Migration → String
  | .create _ => "create"
  | .drop _ => "drop"
  | .update _ => "update"
  | .recreate _ => "recreate"

def planTable (plan : List Migration) : Table :=
  { header := ["Kind", "View", "Documents", "Description"]
    rows := plan.map fun m =>
      [migrationKind m, m.view, m.documents?.elim "-" toString, m.description] }

def affectedTable (paths : List String) : Table :=
  { header := ["#", "Affected field"]
    rows := paths.zipIdx.map fun (path, i) => [toString (i + 1), path] }

/-! ### What a run does -/

abbrev Run := Except Failure

def source (s : Surroundings) : Option String → Run String
  | some path => (s.file path).mapError (.file path)
  | none => s.input.mapError .input

def loadModel (s : Surroundings) (path : String) : Run Model := do
  (Model.ofText (← source s (some path))).mapError (.model path)

def updateInputs (s : Surroundings) (schema : Option String) (full : Bool) : Run String := do
  let some document := Sdl.Document.parse? (← source s schema) | .error .schema
  (UpdateInput.textOf document full).mapError .synthesis

def createInput (s : Surroundings) (model type : String) : Run String := do
  let model ← loadModel s model
  let id ← (({ model } : InputGenerator).typeOf? type).mapError .createInput
  return (model.createInputDocument id).text

def prepare (s : Surroundings) (format : Format) (model type : String)
    (payload : Option String) : Run String := do
  let model ← loadModel s model
  let payload ← (Json.parse (← source s payload)).mapError .payloadText
  let prepared ← (model.preparation s.creation type payload).mapError .payload
  match format with
  | .json => return prepared.toJson.pretty
  | .table =>
    return (Json.object prepared.properties).pretty ++ "\n" ++
      (affectedTable prepared.affectedFields).text

/-- Plans against a snapshot, an empty one where none is given, and applies the plan if asked. -/
def planViews (s : Surroundings) (format : Format) (settings : Search.Settings) (model : String)
    (snapshot : Option SnapshotFile) : Run (String × Option Save) := do
  let model ← loadModel s model
  let store ←
    match snapshot with
    | none => pure {}
    | some { path, .. } =>
      (Store.ofText (← source s (some path))).mapError (.snapshot path)
  let plan ← (Search.plan model store.probe settings false).mapError .planning
  let output :=
    match format with
    | .json => (Json.array (plan.map (·.toJson))).pretty
    | .table => if plan.isEmpty then "Search views are up to date." else (planTable plan).text
  let save := (snapshot.filter (·.writeBack)).map fun { path, .. } =>
    { path, text := (store.applyAll plan).text
      notice := "Applied " ++ toString plan.length ++ " migration(s) to " ++ path }
  return (output, save)

def execute (s : Surroundings) (invocation : Invocation) : Run (String × Option Save) := do
  let configuration ← (Configuration.load invocation.config s.content s.environment).mapError
    .configuration
  let format := invocation.format.getD .json
  match invocation.action with
  | .updateInputs schema full => return (← updateInputs s schema full, none)
  | .createInput model type => return (← createInput s model type, none)
  | .prepare model type payload => return (← prepare s format model type payload, none)
  | .planViews model store => planViews s format configuration.search model store

def run (args : List String) (s : Surroundings) : Outcome :=
  match parse args (s.valueOf? configVariable) with
  | .error reason => .stopped reason
  | .ok invocation =>
    match execute s invocation with
    | .ok (output, save) => .done output save
    | .error reason => .failed reason

end EntitySchema.Command
