import EntitySchema.Entries

/-!
The subcommands of the command line and the options they take.
-/

namespace EntitySchema.Command

inductive Subcommand where
  | updateInputs
  | createInput
  | prepare
  | planViews
  deriving DecidableEq, Repr

def Subcommand.all : List Subcommand := [.updateInputs, .createInput, .prepare, .planViews]

def Subcommand.name : Subcommand → String
  | .updateInputs => "update-inputs"
  | .createInput => "create-input"
  | .prepare => "prepare"
  | .planViews => "plan-views"

def Subcommand.ofName? (name : String) : Option Subcommand := all.find? (·.name == name)

inductive ValueKind where
  | text
  /-- A path is not empty. -/
  | path
  | choice (names : List String)
  deriving DecidableEq, Repr

def ValueKind.accepts : ValueKind → String → Bool
  | .text, _ => true
  | .path, value => !value.isEmpty
  | .choice names, value => value ∈ names

structure OptionSpec where
  long : String
  short : Option Char := none
  /-- The kind of its value and what help calls it; a switch has none. -/
  value : Option (ValueKind × String) := none
  required : Bool := false
  /-- The variable that stands in for the option where it is not given. -/
  standIn : Option String := none
  about : String
  deriving DecidableEq, Repr

def configVariable : String := "FLEXSCHEMA_CONFIG"

def configOption : OptionSpec :=
  { long := "config", short := some 'c', value := some (.path, "CONFIG")
    standIn := some configVariable
    about := "Config file (defaults to ./flexschema.toml when present)" }

def logLevelOption : OptionSpec :=
  { long := "log-level", value := some (.text, "LOG_LEVEL")
    about := "Log level, overrides the config file" }

inductive Format where
  | json
  | table
  deriving DecidableEq, Repr

def Format.name : Format → String
  | .json => "json"
  | .table => "table"

def Format.ofName? (name : String) : Option Format :=
  [Format.json, .table].find? (·.name == name)

def formatOption : OptionSpec :=
  { long := "format", short := some 'f'
    value := some (.choice ([Format.json, .table].map (·.name)), "FORMAT")
    about := "Output format" }

/-- Options that may stand before a subcommand as well as behind it. -/
def globalOptions : List OptionSpec := [configOption, logLevelOption, formatOption]

def modelOption : OptionSpec :=
  { long := "model", value := some (.path, "MODEL"), required := true
    about := "Path to the model JSON" }

def typeOption : OptionSpec :=
  { long := "type", value := some (.text, "TYPE_NAME"), required := true
    about := "Object type name (e.g. Delivery)" }

def Subcommand.about : Subcommand → String
  | .updateInputs => "Print the Update/UpdateAll input types for a schema"
  | .createInput => "Print the Create input of a type and the inputs it nests"
  | .prepare => "Prepare a create payload and list the fields it writes"
  | .planViews => "Plan search view migrations against a store snapshot"

def Subcommand.ownOptions : Subcommand → List OptionSpec
  | .updateInputs =>
    [{ long := "schema", value := some (.path, "SCHEMA")
       about := "Path to the schema SDL (reads from stdin if omitted)" },
      { long := "full", about := "Print the whole schema with the inputs appended" }]
  | .createInput => [modelOption, typeOption]
  | .prepare =>
    [modelOption, typeOption,
      { long := "payload", value := some (.path, "PAYLOAD")
        about := "Path to the payload JSON (reads from stdin if omitted)" }]
  | .planViews =>
    [modelOption,
      { long := "store", value := some (.path, "STORE")
        about := "Store snapshot JSON; an empty store if omitted" },
      { long := "apply",
        about := "Apply the plan and write the resulting snapshot back to --store" }]

def optionsAt : Option Subcommand → List OptionSpec
  | none => globalOptions
  | some sub => sub.ownOptions ++ globalOptions

end EntitySchema.Command
