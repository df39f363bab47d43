import EntitySchema.Json.Decode

/-!
Tuning that applies to every computed search view.
-/

namespace EntitySchema.Search

open Json (Fault Outline)
open Json.Outline

structure Settings where
  /-- How often the same field may stand on one path of nested links. -/
  recursionDepth : Nat := 1
  commitInterval : Nat := 1000
  consolidationInterval : Nat := 1000
  deriving DecidableEq, Repr

namespace Settings

inductive Invalid where
  | recursionDepth
  | commitInterval
  deriving DecidableEq, Repr

def Invalid.message : Invalid → String
  | .recursionDepth => "search.recursion_depth must be > 0"
  | .commitInterval => "search.commit_interval_msec must be > 0"

def validate (settings : Settings) : Except Invalid Unit :=
  if settings.recursionDepth = 0 then .error .recursionDepth
  else if settings.commitInterval = 0 then .error .commitInterval
  else .ok ()

def toJson (settings : Settings) : Json :=
  .object
    [("recursion_depth", .nat settings.recursionDepth),
      ("commit_interval_msec", .nat settings.commitInterval),
      ("consolidation_interval_msec", .nat settings.consolidationInterval)]

def keys : List String :=
  ["recursion_depth", "commit_interval_msec", "consolidation_interval_msec"]

def readPart (_ : Nat) (settings : Settings) (key : String) (value : Outline) :
    Except Fault Settings := do
  match key with
  | "recursion_depth" => return { settings with recursionDepth := ← value.readNat }
  | "commit_interval_msec" => return { settings with commitInterval := ← value.readNat }
  | _ => return { settings with consolidationInterval := ← value.readNat }

def read : Json.Reader Settings := readRecord keys {} readPart

end Settings

end EntitySchema.Search
