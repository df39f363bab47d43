import EntitySchema.Command.Options

/-!
Reading a command line. Options are `--name value`, `--name=value`, `-n value`, `-nvalue` or
`-n=value`, each at most once on either side of the subcommand; a value does not start with a dash.
-/

namespace EntitySchema.Command

inductive Refusal where
  /-- The value is missing, or is none that the option accepts. -/
  | invalidValue (option : String)
  | unknownArgument (argument : String)
  | missingRequired (options : List String)
  | repeated (option : String)
  | valueForSwitch (option : String)
  | unknownSubcommand (name : String)
  | missingSubcommand
  | nothingGiven
  deriving DecidableEq, Repr

inductive HelpTopic where
  | program
  | subcommand (sub : Subcommand)
  | help
  deriving DecidableEq, Repr

inductive Stop where
  | help (topic : HelpTopic)
  | version
  | refused (reason : Refusal)
  deriving DecidableEq, Repr

/-- The values of options by long name. The value of a switch is empty. -/
abbrev Given := Entries String

def Given.accept (given : Given) (option : OptionSpec) (value : String) : Except Stop Given :=
  if given.contains option.long then .error (.refused (.repeated option.long))
  else if option.value.any fun (kind, _) => !kind.accepts value then
    .error (.refused (.invalidValue option.long))
  else .ok (given.put option.long value)

/-- The options read so far. The last one may wait for its value, or have one that is not accepted
before the next option comes. -/
structure Progress where
  given : Given := []
  open? : Option (OptionSpec × Option String) := none
  deriving DecidableEq, Repr

namespace Progress

def awaitsValue (progress : Progress) : Bool := progress.open?.any (·.2.isNone)

def settle (progress : Progress) : Except Stop Given :=
  match progress.open? with
  | none => .ok progress.given
  | some (option, none) => .error (.refused (.invalidValue option.long))
  | some (option, some value) => progress.given.accept option value

def take (progress : Progress) (option : OptionSpec) (value : String) : Except Stop Progress := do
  return { given := ← (← progress.settle).accept option value }

def await (progress : Progress) (option : OptionSpec) : Except Stop Progress := do
  return { given := ← progress.settle, open? := some (option, none) }

def stop (progress : Progress) (reason : Stop) : Except Stop Progress := do
  let _ ← progress.settle
  .error reason

end Progress

/-- The place of arguments: before any subcommand, or behind one. -/
abbrev Place := Option Subcommand

def Place.topic : Place → HelpTopic
  | none => .program
  | some sub => .subcommand sub

def Place.hasVersion (place : Place) : Bool := place.isNone

def takeLong (place : Place) (progress : Progress) (name : String) (value? : Option String) :
    Except Stop Progress :=
  let switch (reason : Stop) :=
    if value?.isSome then .error (.refused (.valueForSwitch name)) else progress.stop reason
  if name = "help" then switch (.help place.topic)
  else if name = "version" && place.hasVersion then switch .version
  else
    match (optionsAt place).find? (·.long == name) with
    | none => .error (.refused (.unknownArgument ("--" ++ name)))
    | some option =>
      match option.value, value? with
      | none, some _ => .error (.refused (.valueForSwitch name))
      | none, none => progress.take option ""
      | some _, some value => progress.take option value
      | some _, none => progress.await option

/-- Reads short options behind one dash. What follows an option with a value is that value. -/
def takeShort (place : Place) : List Char → Progress → Except Stop Progress
  | [], progress => .ok progress
  | c :: rest, progress =>
    if c = 'h' then progress.stop (.help place.topic)
    else if c = 'V' && place.hasVersion then progress.stop .version
    else
      match (optionsAt place).find? (·.short == some c) with
      | none => .error (.refused (.unknownArgument (String.ofList ['-', c])))
      | some option =>
        if option.value.isNone then do takeShort place rest (← progress.take option "")
        else
          match rest with
          | [] => progress.await option
          | '=' :: value => progress.take option (String.ofList value)
          | value => progress.take option (String.ofList value)

def helpName : String := "help"

def isSubcommand (name : String) : Bool := name == helpName || (Subcommand.ofName? name).isSome

def stray (place : Place) (behindDashes : Bool) (word : String) : Stop :=
  .refused <|
    if place.isSome || (behindDashes && isSubcommand word) then .unknownArgument word
    else .unknownSubcommand word

def walk (place : Place) : List String → Progress → Except Stop (Progress × List String)
  | [], progress => .ok (progress, [])
  | arg :: rest, progress =>
    if !progress.awaitsValue && place.isNone && isSubcommand arg then .ok (progress, arg :: rest)
    else
      match arg.toList with
      | ['-', '-'] =>
        match rest with
        | [] => .ok (progress, [])
        | word :: _ => .error (stray place true word)
      | '-' :: '-' :: text =>
        let name := String.ofList (text.takeWhile (· ≠ '='))
        let value? :=
          match text.dropWhile (· ≠ '=') with
          | [] => none
          | _ :: value => some (String.ofList value)
        do walk place rest (← takeLong place progress name value?)
      | '-' :: c :: shorts => do walk place rest (← takeShort place (c :: shorts) progress)
      | _ =>
        match progress.open? with
        | some (option, none) => walk place rest { progress with open? := some (option, some arg) }
        | _ => .error (stray place false arg)

def helpStop : List String → Stop
  | [] => .help .program
  | [name] =>
    if name = helpName then .help .help
    else
      match Subcommand.ofName? name with
      | some sub => .help (.subcommand sub)
      | none => .refused (.unknownSubcommand name)
  | name :: word :: _ => .refused (.unknownSubcommand (if isSubcommand name then word else name))

/-- The options of a place, once all its arguments are read. A variable that stands in for an
option is held to the same rule as the option. -/
def settled (progress : Progress) (config? : Option String) : Except Stop Given := do
  let given ← progress.settle
  match config?, given.contains configOption.long with
  | some value, false => discard (given.accept configOption value)
  | _, _ => pure ()
  return given

structure SnapshotFile where
  path : String
  writeBack : Bool
  deriving DecidableEq, Repr

/-- What a command line asks for. A source without a path is the standard input. -/
inductive Action where
  | updateInputs (schema : Option String) (full : Bool)
  | createInput (model type : String)
  | prepare (model type : String) (payload : Option String)
  | planViews (model : String) (store : Option SnapshotFile)
  deriving DecidableEq, Repr

structure Invocation where
  action : Action
  config : Option String
  logLevel : Option String
  format : Option Format
  deriving DecidableEq, Repr

def missing {α : Type} (options : List OptionSpec) : Except Stop α :=
  .error (.refused (.missingRequired (options.map (·.long))))

def requiredValue (given : Given) (option : OptionSpec) : Except Stop String :=
  (given.get? option.long).elim (missing [option]) .ok

def action (sub : Subcommand) (given : Given) : Except Stop Action := do
  match sub with
  | .updateInputs => return .updateInputs (given.get? "schema") (given.contains "full")
  | .createInput =>
    return .createInput (← requiredValue given modelOption) (← requiredValue given typeOption)
  | .prepare =>
    return .prepare (← requiredValue given modelOption) (← requiredValue given typeOption)
      (given.get? "payload")
  | .planViews =>
    let model ← requiredValue given modelOption
    match given.get? "store", given.contains "apply" with
    | some path, writeBack => return .planViews model (some { path, writeBack })
    | none, false => return .planViews model none
    | none, true => .error (.refused (.missingRequired ["store"]))

/-- Reads a command line, without the name of the program. An option behind the subcommand counts
more than one before it, and both count more than a variable. -/
def parse (args : List String) (config? : Option String) : Except Stop Invocation := do
  let (progress, rest) ← walk none args {}
  match rest with
  | [] =>
    let given ← settled progress config?
    let bare := given.isEmpty && config?.isNone
    .error (.refused (if bare then .nothingGiven else .missingSubcommand))
  | name :: rest =>
    match Subcommand.ofName? name with
    | none => .error (helpStop rest)
    | some sub =>
      let (inner, _) ← walk (some sub) rest {}
      let inside ← settled inner config?
      let action ← action sub inside
      let before ← settled progress config?
      let value? (option : OptionSpec) := (inside.get? option.long).or (before.get? option.long)
      return { action, config := (value? configOption).or config?
               logLevel := value? logLevelOption
               format := (value? formatOption).bind Format.ofName? }

end EntitySchema.Command
