import EntitySchema.Search.Settings

/-!
What a user configures: the level of the log, and the tuning of search views.
-/

namespace EntitySchema

open Json (Fault Outline)
open Json.Outline

/-- White space as the Unicode standard counts it. -/
def Text.isBlank (c : Char) : Bool :=
  let code := c.toNat
  (9 ≤ code && code ≤ 13) || code == 0x20 || code == 0x85 || code == 0xa0 || code == 0x1680 ||
    (0x2000 ≤ code && code ≤ 0x200a) || code == 0x2028 || code == 0x2029 || code == 0x202f ||
    code == 0x205f || code == 0x3000

structure Configuration where
  logLevel : String := "warn"
  search : Search.Settings := {}
  deriving DecidableEq, Repr

namespace Configuration

inductive Invalid where
  | emptyLogLevel
  | search (reason : Search.Settings.Invalid)
  deriving DecidableEq, Repr

def Invalid.message : Invalid → String
  | .emptyLogLevel => "logging.level must not be empty"
  | .search reason => reason.message

/-- A log level of white space counts as empty. -/
def validate (c : Configuration) : Except Invalid Unit :=
  if c.logLevel.toList.all Text.isBlank then .error .emptyLogLevel
  else c.search.validate.mapError .search

def toJson (c : Configuration) : Json :=
  .object
    [("logging", .object [("level", .string c.logLevel)]), ("search", c.search.toJson)]

def readLogLevel : Json.Reader String :=
  readRecord ["level"] ({} : Configuration).logLevel fun _ _ _ value => value.readString

def readPart (room : Nat) (c : Configuration) (key : String) (value : Outline) :
    Except Fault Configuration := do
  match key with
  | "logging" => return { c with logLevel := ← readLogLevel room value }
  | _ => return { c with search := ← Search.Settings.read room value }

def read : Json.Reader Configuration := readRecord ["logging", "search"] {} readPart

end Configuration

end EntitySchema
