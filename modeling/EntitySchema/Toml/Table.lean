import EntitySchema.Configuration.Setting

/-!
Building the tables of a TOML document. A table is defined once: by a header, or by the dotted
keys that add to it, or as a value. A key has one value.
-/

namespace EntitySchema.Toml

/-- A dotted key: the tables it passes through and the name in the last one. -/
structure Key where
  parents : List String
  name : String
  deriving DecidableEq, Repr

inductive Origin where
  /-- A header of a table inside it. -/
  | implied
  /-- A dotted key that made it or added to it. -/
  | dotted
  /-- A header or braces of its own. -/
  | defined
  deriving DecidableEq, Repr

inductive Node where
  | value (setting : Setting)
  | table (origin : Origin) (entries : List (String × Node))
  /-- A list of tables that headers add to. -/
  | tables (earlier : List (List (String × Node))) (last : List (String × Node))
  deriving Repr

abbrev Table := Origin × Entries Node

namespace Table

/-- Changes the table that a path of names leads to. Tables on the way that do not exist yet are
made; a list of tables leads to its last one. A dotted key does not enter a defined table. -/
def enter (byDots : Bool) (change : Table → Option Table) : List String → Table → Option Table
  | [], table => change table
  | name :: rest, (origin, entries) =>
    match entries.get? name with
    | none => do
      let (origin', inner) ← enter byDots change rest (if byDots then .dotted else .implied, [])
      return (origin, entries.put name (.table origin' inner))
    | some (.table origin' inner) =>
      if byDots && origin' = .defined then none
      else do
        let (origin', inner) ← enter byDots change rest (origin', inner)
        return (origin, entries.put name (.table origin' inner))
    | some (.tables earlier last) => do
      let (_, last) ← enter byDots change rest (.defined, last)
      return (origin, entries.put name (.tables earlier last))
    | some (.value _) => none

def openTable (key : Key) : Table → Option Table :=
  enter false (fun (origin, entries) =>
      match entries.get? key.name with
      | none => some (origin, entries.put key.name (.table .defined []))
      | some (.table .implied inner) => some (origin, entries.put key.name (.table .defined inner))
      | some _ => none)
    key.parents

def openItem (key : Key) : Table → Option Table :=
  enter false (fun (origin, entries) =>
      match entries.get? key.name with
      | none => some (origin, entries.put key.name (.tables [] []))
      | some (.tables earlier last) =>
        some (origin, entries.put key.name (.tables (earlier ++ [last]) []))
      | some _ => none)
    key.parents

/-- Gives a value to a key inside a table. A dotted key adds to no table that is defined. -/
def assign (key : Key) (value : Setting) : Table → Option Table :=
  enter true (fun (origin, entries) =>
      let byDots := !key.parents.isEmpty
      if (byDots && origin = .defined) || entries.contains key.name then none
      else some (if byDots then .dotted else origin, entries.put key.name (.value value)))
    key.parents

end Table

mutual

def Node.toSetting : Node → Setting
  | .value setting => setting
  | .table _ entries => .table (settingsOf entries)
  | .tables earlier last => .list (tablesOf earlier ++ [.table (settingsOf last)])

def settingsOf : List (String × Node) → List (String × Setting)
  | [] => []
  | (key, node) :: rest => (key, node.toSetting) :: settingsOf rest

def tablesOf : List (List (String × Node)) → List Setting
  | [] => []
  | table :: rest => .table (settingsOf table) :: tablesOf rest

end

def inlineTable? (pairs : List (Key × Setting)) : Option Setting := do
  let (_, entries) ← pairs.foldlM (fun table (key, value) => Table.assign key value table)
    (.defined, [])
  return .table (settingsOf entries)

end EntitySchema.Toml
