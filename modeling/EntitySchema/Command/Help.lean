import EntitySchema.Command.Arguments
import EntitySchema.Text.Escapes

/-!
The help and version texts of the command line.
-/

namespace EntitySchema.Command

def programName : String := "flexschema"

def versionText : String := programName ++ " 0.0.1"

def helpAbout : String := "Print this message or the help of the given subcommand(s)"

def filled (width : Nat) (text : String) : String :=
  text ++ String.ofList (List.replicate (width - text.length) ' ')

/-- Lines of two columns, the left one as wide as its widest text. A text on the right that has
several lines stays in its column. -/
def twoColumns (rows : List (String × String)) : List String :=
  let width := (rows.map fun row => row.1.length).foldl max 0
  rows.map fun (left, right) =>
    let lines := right.splitOn "\n"
    "  " ++ filled width left ++ "  " ++ ("\n" ++ filled (width + 4) "").intercalate lines

def OptionSpec.form (option : OptionSpec) : String :=
  let short := option.short.elim "    " fun c => String.ofList ['-', c] ++ ", "
  short ++ "--" ++ option.long ++ option.value.elim "" fun (_, label) => " <" ++ label ++ ">"

def OptionSpec.meaning (option : OptionSpec) (config? : Option String) : String :=
  let variableText := option.standIn.elim "" fun name =>
    " [env: " ++ name ++ "=" ++ config?.getD "" ++ "]"
  let choices :=
    match option.value with
    | some (.choice names, _) => " [possible values: " ++ ", ".intercalate names ++ "]"
    | _ => ""
  option.about ++ variableText ++ choices

def helpOption : OptionSpec := { long := "help", short := some 'h', about := "Print help" }

def versionOption : OptionSpec :=
  { long := "version", short := some 'V', about := "Print version" }

def optionLines (options : List OptionSpec) (config? : Option String) : List String :=
  twoColumns (options.map fun option => (option.form, option.meaning config?))

def programHelp (config? : Option String) : List String :=
  ["Synthesize mutation inputs and plan search view migrations", "",
    "Usage: " ++ programName ++ " [OPTIONS] <COMMAND>", "", "Commands:"] ++
    twoColumns ((Subcommand.all.map fun sub => (sub.name, sub.about)) ++ [(helpName, helpAbout)]) ++
    ["", "Options:"] ++
    optionLines (optionsAt none ++ [helpOption, versionOption]) config?

def subcommandHelp (sub : Subcommand) (config? : Option String) : List String :=
  let required := sub.ownOptions.filter (·.required)
  let forms := required.map fun option => " " ++ option.form.trimAsciiStart.toString
  [sub.about, "",
    "Usage: " ++ programName ++ " " ++ sub.name ++ " [OPTIONS]" ++ String.join forms, "",
    "Options:"] ++
    optionLines (optionsAt (some sub) ++ [helpOption]) config?

def HelpTopic.lines (topic : HelpTopic) (config? : Option String) : List String :=
  match topic with
  | .program => programHelp config?
  | .subcommand sub => subcommandHelp sub config?
  | .help =>
    [helpAbout, "", "Usage: " ++ programName ++ " " ++ helpName ++ " [COMMAND]...", "",
      "Arguments:", "  [COMMAND]...  Print help for the subcommand(s)"]

/-- The text of a help topic. A variable's value is shown in it without escape sequences. -/
def HelpTopic.text (topic : HelpTopic) (config? : Option String) : String :=
  Text.withoutEscapes (String.join ((topic.lines config?).map (· ++ "\n")))

def Refusal.message : Refusal → String
  | .invalidValue option => "no valid value for '--" ++ option ++ "'"
  | .unknownArgument argument => "unexpected argument '" ++ argument ++ "' found"
  | .missingRequired options =>
    "required arguments were not provided: " ++ ", ".intercalate (options.map ("--" ++ ·))
  | .repeated option => "the argument '--" ++ option ++ "' cannot be used multiple times"
  | .valueForSwitch option => "'--" ++ option ++ "' takes no value"
  | .unknownSubcommand name => "unrecognized subcommand '" ++ name ++ "'"
  | .missingSubcommand | .nothingGiven => "a subcommand is required but was not provided"

end EntitySchema.Command
