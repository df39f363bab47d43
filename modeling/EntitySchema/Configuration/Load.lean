import EntitySchema.Configuration.Basic
import EntitySchema.Configuration.KeyPath
import EntitySchema.Text.CaseMapping
import EntitySchema.Text.Scanner
import EntitySchema.Toml.Document

/-!
Loading a configuration: a file, overridden by environment variables, then converted and checked.
-/

namespace EntitySchema

/-! ### Settings from environment variables

`FLEXSCHEMA__SEARCH__RECURSION_DEPTH` overrides `search.recursion_depth`. -/

namespace Environment

def namePrefix : String := "flexschema__"

def separator : String := "__"

def lowered (name : String) : String := String.ofList (name.toList.flatMap Text.lowerCase)

/-- The path that a variable sets. Names are read without regard to case. -/
def key? (name : String) : Option String :=
  (Text.dropLiteral? namePrefix.toList (lowered name).toList).map fun rest =>
    ".".intercalate ((String.ofList rest).splitOn separator)

/-- A value is a switch, an integer or a decimal number if it reads as one, else a text. -/
def setting (value : String) : Setting :=
  match lowered value with
  | "true" => .flag true
  | "false" => .flag false
  | _ =>
    match Setting.whole? value with
    | some n => .whole n
    | none =>
      match Extended.ofText? value with
      | some x => .real x
      | none => .text value

def settings (environment : List (String × String)) : List (String × Setting) :=
  environment.filterMap fun (name, value) => (key? name).map fun key => (key, setting value)

end Environment

/-! ### Files, conversion and checks -/

namespace Configuration

inductive Format where
  | toml
  | json
  deriving DecidableEq, Repr

/-- What stands behind the last dot of a path's last name. A dot in front of it does not count. -/
def extension? (path : String) : Option String := do
  let name := ((path.splitOn "/").getLast?).getD ""
  match (name.splitOn ".").reverse with
  | ext :: first :: rest => if rest.isEmpty && first.isEmpty then none else some ext
  | _ => none

def Format.ofPath? (path : String) : Option Format :=
  match extension? path with
  | some "toml" => some .toml
  | some "json" => some .json
  | _ => none

def Format.read? (format : Format) (text : String) : Option (List (String × Setting)) :=
  match format with
  | .toml => Toml.read? text
  | .json =>
    match Json.parse text with
    | .ok (.object members) => some (Setting.ofMembers members)
    | _ => none

inductive LoadError where
  | missing (path : String)
  | isDirectory (path : String)
  /-- No known format, or no text of it. -/
  | unreadable (path : String)
  /-- A setting that does not convert to its type. -/
  | mismatch
  | invalid (reason : Invalid)
  deriving DecidableEq, Repr

def LoadError.message : LoadError → String
  | .missing path => "config file not found: " ++ path
  | .isDirectory path => "config build error: configuration file \"" ++ path ++ "\" not found"
  | .unreadable path => "config build error: cannot read " ++ path
  | .mismatch => "config deserialize error: unexpected value"
  | .invalid reason => reason.message

/-- The fields of a record of settings, none where it says nothing. A list gives them in the
order of their names. -/
def fields? (names : List String) : Setting → Option (List (Option Setting))
  | .table entries => some (names.map (Entries.get? entries))
  | .list items => some ((List.range names.length).map fun i => items[i]?)
  | _ => none

def field? {α : Type} (convert : Setting → Option α) (default : α) :
    Option Setting → Option α
  | none => some default
  | some setting => convert setting

def logLevel? (setting : Setting) : Option String := do
  match ← fields? ["level"] setting with
  | [level] => field? Setting.toText? ({} : Configuration).logLevel level
  | _ => none

def search? (setting : Setting) : Option Search.Settings := do
  let start : Search.Settings := {}
  match ← fields? Search.Settings.keys setting with
  | [depth, commit, consolidation] =>
    return { recursionDepth := ← field? Setting.toNat? start.recursionDepth depth
             commitInterval := ← field? Setting.toNat? start.commitInterval commit
             consolidationInterval :=
               ← field? Setting.toNat? start.consolidationInterval consolidation }
  | _ => none

def ofSetting? (setting : Setting) : Option Configuration := do
  let start : Configuration := {}
  match ← fields? ["logging", "search"] setting with
  | [logging, search] =>
    return { logLevel := ← field? logLevel? start.logLevel logging
             search := ← field? search? start.search search }
  | _ => none

/-- A byte order mark in front of a file's text is not part of it. -/
def withoutMark (text : String) : String :=
  match text.toList with
  | '\uFEFF' :: rest => String.ofList rest
  | _ => text

def fileSettings (path text : String) : Except LoadError (List (String × Setting)) :=
  ((Format.ofPath? path).bind fun format => format.read? (withoutMark text)).elim
    (.error (.unreadable path)) .ok

def ofSources (file environment : List (String × Setting)) : Except LoadError Configuration := do
  let settings := ((Setting.table []).overlay file).overlay environment
  let configuration ← (ofSetting? settings).elim (.error .mismatch) .ok
  configuration.validate.mapError .invalid
  return configuration

def defaultPath : String := "flexschema.toml"

inductive FileContent where
  | absent
  | directory
  | unreadable
  | text (content : String)
  deriving DecidableEq, Repr

/-- Loads a named file, which has to exist, or the default one, under the given variables. -/
def load (path? : Option String) (file : String → FileContent)
    (environment : List (String × String)) : Except LoadError Configuration := do
  let path := path?.getD defaultPath
  let settings ←
    match file path with
    | .text text => fileSettings path text
    | .directory => .error (.isDirectory path)
    | .unreadable => .error (.unreadable path)
    | .absent => if path?.isSome then .error (.missing path) else .ok []
  ofSources settings (Environment.settings environment)

end Configuration

end EntitySchema
