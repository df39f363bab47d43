import EntitySchema.Json.Outline

/-!
Readers of typed values. A reader follows an outline in text order, so of two faults it reports
the one that stands first. `room` is the number of arrays and objects that may still be entered.
-/

namespace EntitySchema.Json

inductive Fault where
  /-- The text is no JSON, or exceeds a limit of the reader. -/
  | malformed
  /-- A well-formed value of the wrong kind, or a missing, unknown or repeated name. -/
  | mismatch
  deriving DecidableEq, Repr

def Fault.message : Fault → String
  | .malformed => "malformed JSON"
  | .mismatch => "unexpected value"

abbrev Reader (α : Type) := Nat → Outline → Except Fault α

namespace Outline

/-- The fault of a value that is not of the wanted kind. Containers are refused unread, scalars
are read to their end first. -/
def unexpected : Outline → Fault
  | .broken | .number none | .string none => .malformed
  | _ => .mismatch

def readBool : Outline → Except Fault Bool
  | .bool value => .ok value
  | o => .error o.unexpected

def readString : Outline → Except Fault String
  | .string (some value) => .ok value
  | o => .error o.unexpected

/-- A natural number written without point and exponent. -/
def readNat : Outline → Except Fault Nat
  | .number (some (.int value)) => if 0 ≤ value then .ok value.toNat else .error .mismatch
  | o => .error o.unexpected

def readOption {α : Type} (read : Reader α) (room : Nat) : Outline → Except Fault (Option α)
  | .null => .ok none
  | o => (read room o).map some

def readList {α : Type} (read : Reader α) : Nat → Outline → Except Fault (List α)
  | 0, .array _ => .error .malformed
  | room + 1, .array items => items.mapM (read room)
  | _, o => .error o.unexpected

/-- How an object says that a case has no content: by null, or as well by an empty object. -/
inductive CaseStyle where
  | strict
  | lenient
  deriving DecidableEq, Repr

def readCase {α : Type} (style : CaseStyle) (case? : String → Option α) :
    Nat → Outline → Except Fault α
  | _, .string (some name) => (case? name).elim (.error .mismatch) .ok
  | 0, .object .. => .error .malformed
  | _ + 1, .object [] _ => .error .malformed
  | _ + 1, .object ((none, _) :: _) _ => .error .malformed
  | _ + 1, .object ((some name, value) :: rest) closed =>
    match case? name with
    | none => .error .mismatch
    | some found =>
      let absent : Bool :=
        match value with
        | .null => true
        | .object [] true => style = .lenient
        | _ => false
      if !absent then .error value.unexpected
      else if rest.isEmpty && closed then .ok found
      else .error .malformed
  | _, _ => .error .malformed

/-- Values by name; of a repeated name the last value stands. -/
def readMembers {α : Type} (read : Outline → Except Fault α)
    (members : List (Option String × Outline)) (closed : Bool) : Except Fault (Entries α) := do
  let pairs ← members.mapM fun (key, value) =>
    match key with
    | none => .error .malformed
    | some key => (read value).map (key, ·)
  if closed then .ok (Entries.collect pairs) else .error .malformed

def readMap {α : Type} (read : Reader α) : Nat → Outline → Except Fault (Entries α)
  | 0, .object .. => .error .malformed
  | room + 1, .object members closed => readMembers (read room) members closed
  | _, o => .error o.unexpected

def readJson : Nat → Outline → Except Fault Json
  | _, .null => .ok .null
  | _, .bool value => .ok (.bool value)
  | _, .number (some value) => .ok (.number value)
  | _, .string (some value) => .ok (.string value)
  | 0, .array _ | 0, .object .. => .error .malformed
  | room + 1, .array items => (items.mapM (readJson room)).map .array
  | room + 1, .object members closed =>
    (readMembers (readJson room) members closed).map .object
  | _, .broken | _, .number none | _, .string none => .error .malformed

/-- Reads the members of a record in turn. A name of the record comes once at most; the values of
other names are skipped. -/
def foldMembers {α : Type} (names : List String) (step : α → String → Outline → Except Fault α) :
    List String → α → List (Option String × Outline) → Bool → Except Fault α
  | _, draft, [], closed => if closed then .ok draft else .error .malformed
  | _, _, (none, _) :: _, _ => .error .malformed
  | seen, draft, (some key, value) :: rest, closed =>
    if key ∈ names then
      if key ∈ seen then .error .mismatch
      else do
        let draft ← step draft key value
        foldMembers names step (key :: seen) draft rest closed
    else if value.wellFormed then foldMembers names step seen draft rest closed
    else .error .malformed

def foldItems {α : Type} (step : α → String → Outline → Except Fault α) :
    List String → α → List Outline → Except Fault α
  | _, draft, [] => .ok draft
  | [], _, _ :: _ => .error .malformed
  | name :: names, draft, item :: rest => do
    let draft ← step draft name item
    foldItems step names draft rest

/-- A record is an object, or the list of its fields' values in the order of `names`. -/
def readRecord {α : Type} (names : List String) (start : α)
    (step : Nat → α → String → Outline → Except Fault α) : Nat → Outline → Except Fault α
  | 0, .array _ | 0, .object .. => .error .malformed
  | room + 1, .array items => foldItems (step room) names start items
  | room + 1, .object members closed =>
    foldMembers names (step room) [] start members closed
  | _, o => .error o.unexpected

def required {α : Type} (field : Option α) : Except Fault α := field.elim (.error .mismatch) .ok

mutual

def ofJson : Json → Outline
  | .null => .null
  | .bool value => .bool value
  | .number value => .number (some value)
  | .string value => .string (some value)
  | .array items => .array (ofItems items)
  | .object members => .object (ofMembers members) true

def ofItems : List Json → List Outline
  | [] => []
  | item :: rest => ofJson item :: ofItems rest

def ofMembers : List (String × Json) → List (Option String × Outline)
  | [] => []
  | (key, value) :: rest => (some key, ofJson value) :: ofMembers rest

end

end Outline

def nestingLimit : Nat := 127

def readText {α : Type} (read : Reader α) (text : String) : Except Fault α := do
  let source := Source.ofText text
  let value ← read nestingLimit source.value
  if source.ended then .ok value else .error .malformed

/-- Reads a typed value from a value in memory, whose depth is not limited. -/
def readValue {α : Type} (read : Reader α) (value : Json) : Except Fault α :=
  (read value.depth (.ofJson value)).mapError fun _ => .mismatch

def parse (text : String) : Except Fault Json := readText Outline.readJson text

end EntitySchema.Json
