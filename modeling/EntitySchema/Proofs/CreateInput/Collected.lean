import EntitySchema.Model.Resolve
import EntitySchema.Proofs.CreateInput.Supplied
import EntitySchema.Proofs.Entries
import Mathlib.Data.List.Induction
import Mathlib.Data.List.Nodup

/-! # Fields collected by several calls

A set of fields is passed through calls that add to it what their payloads write. The walk through a
payload adds fields as it meets them, and may fail behind some of them. A call therefore walks with
an empty set of its own, and gives the fields away when the walk has ended well. -/
namespace EntitySchema

namespace Affected

/-! ### The walk in place -/

abbrev Collector := ExceptT InputError (StateM (List FieldId)) Unit

def Collector.apply (collector : Collector) (set : List FieldId) :
    Except InputError Unit × List FieldId :=
  (ExceptT.run collector).run set

def note (field : FieldId) : Collector := modify (addNew · field)

mutual

/-- Walks through a payload, and adds each field when it is met. -/
def collect (model : Model) (id : TypeId) (payload : Json.Object) : Collector :=
  match model.createInput? id with
  | none => throw (.unknownType "")
  | some input => collectFields model payload input.fields
termination_by (sizeOf payload, 1, 0)

def collectFields (model : Model) (payload : Json.Object) : List InputField → Collector
  | [] => pure ()
  | field :: rest =>
    match _h : payload.get? field.name with
    | none => collectFields model payload rest
    | some value => do
      note field.field
      collectValue model field value
      collectFields model payload rest
termination_by fields => (sizeOf payload, 0, fields.length)
decreasing_by
  · exact Prod.Lex.right _ (Prod.Lex.right _ (by simp))
  · exact Prod.Lex.left _ _ (Entries.sizeOf_lt_of_get? _h)
  · exact Prod.Lex.right _ (Prod.Lex.right _ (by simp))

def collectValue (model : Model) (field : InputField) : Json → Collector
  | .null => pure ()
  | .object members =>
    match field.kind with
    | .object nested => collect model nested.target members
    | .objectList _ => throw (.payloadShape field.name .anArray .object)
    | _ => pure ()
  | .array items =>
    match field.kind with
    | .objectList nested => collectItems model field nested.target items
    | .object _ => throw (.payloadShape field.name .anObject .array)
    | _ => pure ()
  | other =>
    match field.kind with
    | .object _ => throw (.payloadShape field.name .anObject other.kind)
    | .objectList _ => throw (.payloadShape field.name .anArray other.kind)
    | _ => pure ()
termination_by value => (sizeOf value, 0, 0)
decreasing_by
  · simp only [Json.object.sizeOf_spec]
    exact Prod.Lex.left _ _ (by omega)
  · simp only [Json.array.sizeOf_spec]
    exact Prod.Lex.left _ _ (by omega)

def collectItems (model : Model) (field : InputField) (target : TypeId) : List Json → Collector
  | [] => pure ()
  | .object members :: rest => do
    collect model target members
    collectItems model field target rest
  | other :: _ => throw (.payloadShape field.name .listOfObjects other.kind)
termination_by items => (sizeOf items, 0, 0)
decreasing_by
  · simp only [List.cons.sizeOf_spec, Json.object.sizeOf_spec]
    exact Prod.Lex.left _ _ (by omega)
  · simp only [List.cons.sizeOf_spec]
    exact Prod.Lex.left _ _ (by omega)

end

/-- A collector adds certain fields to any set. If it fails, it has added some by then. -/
inductive Adds (collector : Collector) : Except InputError (List FieldId) → Prop
  | done {fields : List FieldId}
      (h : ∀ set, collector.apply set = (.ok (), fields.foldl addNew set)) :
      Adds collector (.ok fields)
  | failed {e : InputError} (added : List FieldId)
      (h : ∀ set, collector.apply set = (.error e, added.foldl addNew set)) :
      Adds collector (.error e)

/-- What a failing collector has added until then stays. -/
theorem apply_bind (first second : Collector) (set : List FieldId) :
    Collector.apply (first >>= fun _ => second) set = match first.apply set with
      | (.ok (), reached) => second.apply reached
      | (.error e, reached) => (.error e, reached) := by
  have hrun : Collector.apply (first >>= fun _ => second) set =
      (ExceptT.bindCont (m := StateM (List FieldId)) (fun _ => second)
        (first.apply set).1).run (first.apply set).2 := rfl
  rw [hrun]
  rcases first.apply set with ⟨_ | _, reached⟩ <;> rfl

namespace Adds

variable {first second : Collector} {outcome outcome' : Except InputError (List FieldId)}

theorem pure : Adds (Pure.pure ()) (.ok []) := .done fun _ => rfl

theorem throw (e : InputError) : Adds (MonadExcept.throw e) (.error e) :=
  .failed [] fun _ => rfl

theorem note (field : FieldId) : Adds (Affected.note field) (.ok [field]) := .done fun _ => rfl

theorem bind (h : Adds first outcome) (h' : Adds second outcome') :
    Adds (first >>= fun _ => second) (do
      let fields ← outcome
      let others ← outcome'
      return fields ++ others) := by
  cases h with
  | failed added h => exact .failed added fun set => by rw [apply_bind, h]
  | @done fields h =>
    cases h' with
    | failed added h' =>
      refine .failed (fields ++ added) fun set => ?_
      simp only [apply_bind, h, h', List.foldl_append]
    | done h' =>
      refine .done fun set => ?_
      simp only [apply_bind, h, h', List.foldl_append]

theorem of_ok {fields : List FieldId} (h : Adds first (.ok fields)) (set : List FieldId) :
    first.apply set = (.ok (), fields.foldl addNew set) := by
  cases h with
  | done h => exact h set

theorem of_error {e : InputError} (h : Adds first (.error e)) :
    ∃ added : List FieldId, ∀ set, first.apply set = (.error e, added.foldl addNew set) := by
  cases h with
  | failed added h => exact ⟨added, h⟩

end Adds

section Walk

variable {model : Model}

def Collects (model : Model) (n : Nat) : Prop :=
  ∀ id object, sizeOf object < n → Adds (collect model id object) (touched model id object)

variable {n : Nat}

theorem adds_collectItems (h : Collects model n) (field : InputField) (target : TypeId)
    {items : List Json} (hsize : sizeOf items ≤ n) :
    Adds (collectItems model field target items) (touchedItems model field target items) := by
  induction items with
  | nil =>
    rw [collectItems, touchedItems]
    exact .pure
  | cons first others ih =>
    cases first with
    | object members =>
      simp only [List.cons.sizeOf_spec, Json.object.sizeOf_spec] at hsize
      rw [collectItems, touchedItems]
      exact (h target members (by omega)).bind (ih (by omega))
    | _ =>
      simp only [collectItems, touchedItems]
      exact .throw _

theorem adds_collectValue (h : Collects model n) (field : InputField) {value : Json}
    (hsize : sizeOf value ≤ n) :
    Adds (collectValue model field value) (touchedValue model field value) := by
  cases value with
  | null =>
    rw [collectValue, touchedValue]
    exact .pure
  | object members =>
    simp only [Json.object.sizeOf_spec] at hsize
    rw [collectValue, touchedValue]
    cases field.kind with
    | object nested => exact h nested.target members (by omega)
    | objectList => exact .throw _
    | _ => exact .pure
  | array items =>
    simp only [Json.array.sizeOf_spec] at hsize
    rw [collectValue, touchedValue]
    cases field.kind with
    | objectList nested => exact adds_collectItems h field nested.target (by omega)
    | object => exact .throw _
    | _ => exact .pure
  | _ =>
    simp only [collectValue, touchedValue]
    cases field.kind with
    | object => exact .throw _
    | objectList => exact .throw _
    | _ => exact .pure

theorem collectFields_cons (payload : Json.Object) (field : InputField) (rest : List InputField) :
    collectFields model payload (field :: rest) =
      match payload.get? field.name with
      | none => collectFields model payload rest
      | some value => (do
        note field.field
        collectValue model field value
        collectFields model payload rest) := by
  rw [collectFields]
  split <;> simp_all

theorem adds_collectFields (h : Collects model n) {payload : Json.Object}
    (hsize : sizeOf payload ≤ n) (fields : List InputField) :
    Adds (collectFields model payload fields) (touchedFields model payload fields) := by
  induction fields with
  | nil =>
    rw [collectFields, touchedFields]
    exact .pure
  | cons field rest ih =>
    rw [collectFields_cons, touchedFields_cons]
    cases hvalue : Entries.get? payload field.name with
    | none => exact ih
    | some value =>
      have hsmall := Entries.sizeOf_lt_of_get? hvalue
      have hinner : Adds (collectValue model field value) (touchedValue model field value) :=
        adds_collectValue h field (by omega)
      dsimp only
      convert (Adds.note field.field).bind (hinner.bind ih) using 1
      cases touchedValue model field value <;> cases touchedFields model payload rest <;> rfl

theorem collects (n : Nat) : Collects model n := by
  induction n with
  | zero =>
    intro id object hsize
    omega
  | succ n ih =>
    intro id object hsize
    rw [collect, touched]
    cases model.createInput? id with
    | none => exact .throw _
    | some input => exact adds_collectFields ih (by omega) input.fields

/-- The walk in place adds the fields that are met, in this order, or fails with the same error. -/
theorem adds_collect (model : Model) (id : TypeId) (payload : Json.Object) :
    Adds (collect model id payload) (touched model id payload) :=
  collects (sizeOf payload + 1) id payload (by omega)

end Walk

/-! ### Ordered sets -/

section OrderedSet

variable {set : List FieldId} {field : FieldId}

theorem addNew_of_mem (h : field ∈ set) : addNew set field = set := if_pos h

theorem addNew_of_not_mem (h : field ∉ set) : addNew set field = set ++ [field] := if_neg h

theorem nodup_addNew (hset : set.Nodup) (field : FieldId) : (addNew set field).Nodup := by
  by_cases hmem : field ∈ set
  · rwa [addNew_of_mem hmem]
  · rw [addNew_of_not_mem hmem, ← List.concat_eq_append]
    exact hset.concat hmem

theorem nodup_foldl_addNew (hset : set.Nodup) (fields : List FieldId) :
    (fields.foldl addNew set).Nodup := by
  induction fields generalizing set with
  | nil => exact hset
  | cons field rest ih => exact ih (nodup_addNew hset field)

/-- The fields that are new to a set come behind it, each once, in the order in which they are
added first. By induction from the last one. -/
theorem foldl_addNew_eq (fields set : List FieldId) :
    fields.foldl addNew set = set ++ (fields.removeAll set).eraseDups := by
  induction fields using List.reverseRecOn with
  | nil => simp
  | append_singleton fields last ih =>
    rw [List.foldl_append, List.foldl_cons, List.foldl_nil]
    by_cases hold : last ∈ set
    · rw [addNew_of_mem (mem_foldl_addNew.2 (.inl hold)), ih]
      simp [List.removeAll, hold]
    by_cases hmet : last ∈ fields
    · rw [addNew_of_mem (mem_foldl_addNew.2 (.inr hmet)), ih]
      simp [List.removeAll, List.eraseDups_append, hold, hmet]
    · have hnew : last ∉ fields.foldl addNew set := by
        rw [mem_foldl_addNew]
        exact not_or.2 ⟨hold, hmet⟩
      rw [addNew_of_not_mem hnew, ih]
      simp [List.removeAll, List.eraseDups_append, List.eraseDups_cons, hold, hmet]

/-- It makes no difference whether fields are added one by one or collected apart before. -/
theorem foldl_addNew_collected (fields set : List FieldId) :
    (fields.foldl addNew []).foldl addNew set = fields.foldl addNew set := by
  induction fields using List.reverseRecOn with
  | nil => rfl
  | append_singleton fields last ih =>
    simp only [List.foldl_append, List.foldl_cons, List.foldl_nil]
    by_cases hmet : last ∈ fields
    · rw [addNew_of_mem (mem_foldl_addNew.2 (.inr hmet)), ih,
        addNew_of_mem (mem_foldl_addNew.2 (.inr hmet))]
    · have hnew : last ∉ fields.foldl addNew [] := by
        rw [mem_foldl_addNew]
        exact not_or.2 ⟨List.not_mem_nil, hmet⟩
      rw [addNew_of_not_mem hnew, List.foldl_append, ih]
      rfl

end OrderedSet

end Affected

open Affected

structure CollectCall where
  input : TypeId
  payload : Json.Object

variable {model : Model} {id : TypeId} {payload : Json.Object} {set : List FieldId}

/-- A payload is reported to write what the walk in place adds to an empty set. -/
theorem Model.affectedFields_eq_collected :
    model.affectedFields id payload =
      match (collect model id payload).apply [] with
      | (.ok (), collected) => .ok collected
      | (.error e, _) => .error e := by
  have hadds := adds_collect model id payload
  rw [affectedFields]
  cases htouched : touched model id payload with
  | ok fields =>
    rw [htouched] at hadds
    rw [hadds.of_ok]
    rfl
  | error e =>
    rw [htouched] at hadds
    obtain ⟨added, h⟩ := hadds.of_error
    rw [h]
    rfl

/-- A call adds what its payload is reported to write. -/
theorem Model.collectAffectedFields_eq :
    model.collectAffectedFields set id payload =
      match model.affectedFields id payload with
      | .ok fields => (fields.foldl addNew set, .ok ())
      | .error e => (set, .error e) := by
  rw [collectAffectedFields, affectedFields]
  cases touched model id payload with
  | ok fields =>
    simp only [Except.map]
    rw [foldl_addNew_collected]
  | error e => rfl

/-! ### Runs of calls -/

def Model.collectEach (model : Model) (set : List FieldId) :
    List CollectCall → List FieldId × List (Except InputError Unit)
  | [] => (set, [])
  | call :: rest =>
    let (reached, outcome) := model.collectAffectedFields set call.input call.payload
    let (last, outcomes) := model.collectEach reached rest
    (last, outcome :: outcomes)

/-- What a call is reported to write, nothing if it fails. -/
def Model.reportedBy (model : Model) (call : CollectCall) : List FieldId :=
  match model.affectedFields call.input call.payload with
  | .ok fields => fields
  | .error _ => []

theorem Model.collectEach_eq (calls : List CollectCall) (set : List FieldId) :
    model.collectEach set calls =
      ((calls.flatMap model.reportedBy).foldl addNew set,
        calls.map fun call => (model.affectedFields call.input call.payload).map fun _ => ()) := by
  induction calls generalizing set with
  | nil => rfl
  | cons call rest ih =>
    rw [collectEach, collectAffectedFields_eq, List.flatMap_cons, List.foldl_append, List.map_cons]
    cases hreport : model.affectedFields call.input call.payload with
    | ok fields => simp [ih, reportedBy, hreport, Except.map]
    | error e => simp [ih, reportedBy, hreport, Except.map]

/-- Calls on one set, some of which may fail. Each walks with a set of its own. One that fails
leaves the set as it was, and the others bring what they are reported to write: the fields that were
not in the set come behind it, in the order of their first occurrence, each once. -/
theorem Model.collected_of_calls (model : Model) (hset : set.Nodup) (calls : List CollectCall) :
    (∀ reached id payload, model.collectAffectedFields reached id payload =
      match (collect model id payload).apply [] with
      | (.ok (), collected) => (collected.foldl addNew reached, .ok ())
      | (.error e, _) => (reached, .error e)) ∧
    (model.collectEach set calls).2 =
      calls.map (fun call => (model.affectedFields call.input call.payload).map fun _ => ()) ∧
    (∀ before call after e, calls = before ++ call :: after →
      (model.collectEach set calls).2[before.length]? = some (.error e) →
        (model.collectEach set (before ++ [call])).1 = (model.collectEach set before).1) ∧
    (model.collectEach set calls).1 =
      set ++ ((calls.flatMap model.reportedBy).removeAll set).eraseDups ∧
    (model.collectEach set calls).1.Nodup := by
  refine ⟨fun reached id payload => ?_, ?_, ?_, ?_, ?_⟩
  · rw [collectAffectedFields_eq, affectedFields_eq_collected]
    rcases (collect model id payload).apply [] with ⟨_ | _, collected⟩ <;> rfl
  · rw [collectEach_eq]
  · rintro before call after e rfl houtcome
    have hfails : model.affectedFields call.input call.payload = .error e := by
      rw [← Results.map_eq_error_iff (f := fun _ => ())]
      simpa [collectEach_eq] using houtcome
    simp [collectEach_eq, reportedBy, hfails]
  · rw [collectEach_eq, foldl_addNew_eq]
  · rw [collectEach_eq]
    exact nodup_foldl_addNew hset _

/-- An item of the second order has a truth value among its parts. The walk in place has met three
fields by then, and none of them gets into the set; the third order writes them after all. -/
theorem collected_of_orders :
    let decl : ModelDecl :=
      { types :=
        [{ name := "Order", kind := .rootEntity,
           fields := [{ name := "note", typeName := "String" },
             { name := "items", typeName := "Item", list := true }] },
         { name := "Item", kind := .childEntity,
           fields := [{ name := "parts", typeName := "Item", list := true },
             { name := "text", typeName := "String" }] }] }
    let first : Json.Object := [("items", .array [.object [("text", .string "bolt")]])]
    let second : Json.Object :=
      [("note", .null), ("items", .array [.object [("parts", .array [.bool true])]])]
    let third : Json.Object :=
      [("items", .array [.object [("parts", .array [.object []])]]), ("note", .null)]
    let fault : InputError := .payloadShape "parts" .listOfObjects .boolean
    ∃ model, Model.resolve decl = .ok model ∧
      (collect model 0 second).apply [] = (.error fault, [⟨0, 3⟩, ⟨0, 4⟩, ⟨1, 3⟩]) ∧
      model.collectEach [⟨1, 4⟩] [⟨0, first⟩, ⟨0, second⟩] =
        ([⟨1, 4⟩, ⟨0, 4⟩], [.ok (), .error fault]) ∧
      model.collectEach [⟨1, 4⟩] [⟨0, first⟩, ⟨0, second⟩, ⟨0, third⟩] =
        ([⟨1, 4⟩, ⟨0, 4⟩, ⟨0, 3⟩, ⟨1, 3⟩], [.ok (), .error fault, .ok ()]) := by
  intro decl first second third fault
  let items (id : FieldId) (name : String) : InputField :=
    ⟨name, id, none, .listOf (Names.createInput "Item"), .objectList ⟨Names.createInput "Item", 1⟩⟩
  let text (id : FieldId) (name : String) : InputField :=
    ⟨name, id, none, .optional "String", .basic⟩
  obtain ⟨model, hresolve, input, hinput, hfields, inner, hinner, hinnerFields⟩ :
      ∃ model, Model.resolve decl = .ok model ∧
        ∃ input, model.createInput? 0 = some input ∧
          input.fields = [text ⟨0, 3⟩ "note", items ⟨0, 4⟩ "items"] ∧
        ∃ inner, model.createInput? 1 = some inner ∧
          inner.fields = [items ⟨1, 3⟩ "parts", text ⟨1, 4⟩ "text"] :=
    ⟨_, rfl, _, rfl, rfl, _, rfl, rfl⟩
  obtain ⟨hfirst, hsecond, hthird⟩ :
      model.affectedFields 0 first = .ok [⟨0, 4⟩, ⟨1, 4⟩] ∧
      model.affectedFields 0 second = .error fault ∧
      model.affectedFields 0 third = .ok [⟨0, 3⟩, ⟨0, 4⟩, ⟨1, 3⟩] := by
    simp only [Model.affectedFields, touched, hinput, hfields, hinner, hinnerFields,
      touchedFields_cons, touchedFields_nil, touchedValue, touchedItems, Entries.get?_cons,
      Entries.get?_nil, String.reduceEq, reduceIte, first, second, third, items, text]
    exact ⟨rfl, rfl, rfl⟩
  have hwalk : (collect model 0 second).apply [] =
      (.error fault, [⟨0, 3⟩, ⟨0, 4⟩, ⟨1, 3⟩]) := by
    simp only [collect, hinput, hfields, hinner, hinnerFields, collectFields_cons, collectValue,
      collectItems, Entries.get?_cons, Entries.get?_nil, String.reduceEq, reduceIte, second, items,
      text]
    rfl
  have hset : [(⟨1, 4⟩ : FieldId)].Nodup := by decide
  obtain ⟨-, houtcomes, -, hlast, -⟩ :=
    Model.collected_of_calls model hset [⟨0, first⟩, ⟨0, second⟩]
  obtain ⟨-, houtcomes', -, hlast', -⟩ :=
    Model.collected_of_calls model hset [⟨0, first⟩, ⟨0, second⟩, ⟨0, third⟩]
  refine ⟨model, hresolve, hwalk, Prod.ext ?_ ?_, Prod.ext ?_ ?_⟩
  · rw [hlast]
    simp only [List.flatMap_cons, List.flatMap_nil, Model.reportedBy, hfirst, hsecond]
    decide
  · rw [houtcomes]
    simp [hfirst, hsecond, Except.map]
  · rw [hlast']
    simp only [List.flatMap_cons, List.flatMap_nil, Model.reportedBy, hfirst, hsecond, hthird]
    decide
  · rw [houtcomes']
    simp [hfirst, hsecond, hthird, Except.map]

end EntitySchema
