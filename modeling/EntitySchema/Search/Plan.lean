import EntitySchema.Search.Migration
import EntitySchema.Search.RequiredView

/-!
Planning: the migrations that bring the views of a store in line with the views a model requires.
Creates come first, then drops, then updates. Planning only reads from the store, through probes
that may fail or never answer; a failing probe fails the whole plan.
-/

namespace EntitySchema.Search

inductive Reply (ε α : Type) where
  | value (a : α)
  | failure (e : ε)
  /-- No answer will ever come. -/
  | pending
  deriving DecidableEq, Repr

namespace Reply

variable {ε δ α β : Type}

def bind (reply : Reply ε α) (next : α → Reply ε β) : Reply ε β :=
  match reply with
  | .value a => next a
  | .failure e => .failure e
  | .pending => .pending

def map (f : α → β) (reply : Reply ε α) : Reply ε β := reply.bind fun a => .value (f a)

def mapFailure (f : ε → δ) : Reply ε α → Reply δ α
  | .value a => .value a
  | .failure e => .failure (f e)
  | .pending => .pending

/-- Two questions asked side by side. A failure of either is noticed though the other is pending,
the left one first. -/
def both (left : Reply ε α) (right : Reply ε β) : Reply ε (α × β) :=
  match left, right with
  | .failure e, _ => .failure e
  | _, .failure e => .failure e
  | .value a, .value b => .value (a, b)
  | .pending, _ | _, .pending => .pending

def all : List (Reply ε α) → Reply ε (List α)
  | [] => .value []
  | reply :: rest => (both reply (all rest)).map fun (a, as) => a :: as

/-- Questions whose answers are taken in order, so that a pending one hides those behind it. -/
def inOrder : List (Reply ε α) → Reply ε (List α)
  | [] => .value []
  | reply :: rest => reply.bind fun a => (inOrder rest).map (a :: ·)

end Reply

inductive ProbeError where
  | unavailable (message : String)
  | query (operation target message : String)
  deriving DecidableEq, Repr

def ProbeError.message : ProbeError → String
  | .unavailable message => "Store unavailable: " ++ message
  | .query operation target message =>
    "Store query \"" ++ operation ++ "\" on \"" ++ target ++ "\" failed: " ++ message

/-- The questions that planning asks a store. Only an existing collection is counted. -/
structure Probe where
  listViews : Reply ProbeError (List View)
  collectionExists : String → Reply ProbeError Bool
  collectionCount : String → Reply ProbeError Nat

inductive MigrationError where
  | probe (e : ProbeError)
  | cancelled
  | invalidConfiguration (reason : Settings.Invalid)
  deriving DecidableEq, Repr

def MigrationError.message : MigrationError → String
  | .probe e => e.message
  | .cancelled => "Migration planning was cancelled"
  | .invalidConfiguration reason => "Invalid search configuration: " ++ reason.message

/-- The documents of a collection, none if it does not exist yet. -/
def Probe.documents (probe : Probe) (collection : String) : Reply ProbeError Nat :=
  (probe.collectionExists collection).bind fun found =>
    if found then probe.collectionCount collection else .value 0

/-- The number of questions up to which failures are noticed out of order. -/
def sideBySideLimit : Nat := 30

def gather {α : Type} (candidates : Nat) (replies : List (Reply ProbeError α)) :
    Reply ProbeError (List α) :=
  if candidates ≤ sideBySideLimit then Reply.all replies else Reply.inOrder replies

def Probe.change (probe : Probe) (view : RequiredView) (properties : ViewProperties) :
    Reply ProbeError ViewChange :=
  (probe.documents view.collection).map fun documents =>
    { view := view.name, collection := view.collection, documents, properties }

def drops (existing : List View) (required : List RequiredView) : List Migration :=
  (existing.filter fun view =>
    view.name.startsWith reservedPrefix && !required.any (·.name == view.name)).map
      fun view => .drop view.name

def creates (model : Model) (existing : List View) (required : List RequiredView) (probe : Probe)
    (settings : Settings) : Reply ProbeError (List Migration) :=
  gather required.length <|
    (required.filter fun view => !existing.any (·.name == view.name)).map fun view =>
      (probe.change view (view.properties model settings)).map .create

def outdated? (model : Model) (required : List RequiredView) (settings : Settings) (view : View) :
    Option (RequiredView × ViewProperties × Bool) := do
  let wanted ← required.find? (·.name == view.name)
  let properties := wanted.properties model settings
  if properties.agrees view.properties then none
  else some (wanted, properties, properties.needsRecreation view.properties)

def updates (model : Model) (existing : List View) (required : List RequiredView) (probe : Probe)
    (settings : Settings) : Reply ProbeError (List Migration) :=
  gather existing.length <|
    (existing.filterMap (outdated? model required settings)).map
      fun (wanted, properties, recreation) =>
        (probe.change wanted properties).map fun change =>
          if recreation then .recreate change else .update change

def diff (model : Model) (existing : List View) (required : List RequiredView) (probe : Probe)
    (settings : Settings) : Reply MigrationError (List Migration) :=
  match settings.validate with
  | .error reason => .failure (.invalidConfiguration reason)
  | .ok () =>
    let changes :=
      Reply.both (creates model existing required probe settings)
        (updates model existing required probe settings)
    (changes.map fun (created, updated) => created ++ drops existing required ++ updated)
      |>.mapFailure .probe

/-- Plans against the views that a store lists. A plan that waits for an answer that never comes
ends when it is cancelled. -/
def plan (model : Model) (probe : Probe) (settings : Settings) (cancelled : Bool) :
    Except MigrationError (List Migration) :=
  if cancelled then .error .cancelled
  else
    let planning := (probe.listViews.mapFailure MigrationError.probe).bind fun existing =>
      diff model existing (requiredViews model) probe settings
    match planning with
    | .value migrations => .ok migrations
    | .failure e => .error e
    | .pending => .error .cancelled

end EntitySchema.Search
