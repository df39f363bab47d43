import EntitySchema.Proofs.CreateInput.Building

/-! # Requests to one generator

The inputs that are available refer to available inputs only, whatever has been requested before. So
an available input, read with its references at any depth, is the one that the model describes. -/
namespace EntitySchema

/-! ### Looking up what has been published -/

namespace InputGenerator

theorem lookup_publish (available : List (TypeId × Nat)) (entry : TypeId × Nat) (id : TypeId) :
    (publish available entry).lookup id =
      (available.lookup id).or (if id = entry.1 then some entry.2 else none) := by
  obtain ⟨key, place⟩ := entry
  simp only [publish]
  cases hkey : available.lookup key with
  | none =>
    rw [if_neg (by simp), lookup_cons_ite]
    by_cases hid : id = key
    · simp [hid, hkey]
    · simp [hid]
  | some found =>
    rw [if_pos (by simp)]
    by_cases hid : id = key
    · simp [hid, hkey]
    · simp [hid]

theorem lookup_foldl_publish (entries available : List (TypeId × Nat)) (id : TypeId) :
    (entries.foldl publish available).lookup id =
      (available.lookup id).or (entries.lookup id) := by
  induction entries generalizing available with
  | nil => simp
  | cons first rest ih =>
    obtain ⟨key, place⟩ := first
    rw [List.foldl_cons, ih, lookup_publish, Option.or_assoc, lookup_cons_ite]
    by_cases hid : id = key
    · simp [hid]
    · simp [hid]

theorem lookup_filter_ne (entries : List (TypeId × Nat)) (id other : TypeId) :
    (entries.filter (·.1 ≠ id)).lookup other =
      if other = id then none else entries.lookup other := by
  induction entries with
  | nil => simp
  | cons first rest ih =>
    obtain ⟨key, place⟩ := first
    by_cases hkey : key = id
    · subst hkey
      rw [List.filter_cons_of_neg (by simp), ih, lookup_cons_ite]
      by_cases hother : other = key
      · simp [hother]
      · simp [hother]
    · rw [List.filter_cons_of_pos (by simpa using hkey), lookup_cons_ite, lookup_cons_ite, ih]
      by_cases hother : other = id
      · simp [hother, Ne.symm hkey]
      · simp [hother]

theorem lookup_published {finished : List (TypeId × Nat)} {id : TypeId} {root : Nat}
    (hroot : finished.lookup id = some root) (available : List (TypeId × Nat)) (other : TypeId) :
    (publish ((finished.filter (·.1 ≠ id)).foldl publish available) (id, root)).lookup other =
      (available.lookup other).or (finished.lookup other) := by
  rw [lookup_publish, lookup_foldl_publish, lookup_filter_ne, Option.or_assoc]
  by_cases hother : other = id
  · simp [hother, hroot]
  · simp [hother]

theorem serves_published {model : Model} {available available' : List (TypeId × Nat)}
    {build : Build} (hsound : build.Sound model available)
    (hdone : ∀ id ref, build.begun.lookup id = some ref →
      ∃ place, build.finished.lookup id = some place)
    (hlookup : ∀ id, available'.lookup id = build.home? available id) (slot : Nat) (id : TypeId)
    (hserves : build.Serves available slot id) :
    Build.Serves available' { inputs := build.inputs, slots := build.slots } slot id := by
  cases hserves with
  | holds hslot hplace =>
    refine .holds hslot ?_
    rw [Build.home?, hlookup, hplace]
    rfl
  | @awaits ref hbegun hslot =>
    -- The type that the slot waited for is finished, so the slot has been filled.
    obtain ⟨place, hplace⟩ := hdone id ref hbegun
    have hfilled := hsound.slot id ref hbegun
    rw [hplace, hslot] at hfilled
    refine .holds hfilled ?_
    rw [Build.home?, hlookup, Build.home?, hsound.unavailable id ref hbegun, hplace]
    rfl

/-! ### One request -/

variable {decl : ModelDecl} {model : Model} {generator generator' : InputGenerator} {id : TypeId}
  {place : Nat}

structure Sound (model : Model) (generator : InputGenerator) : Prop where
  model_eq : generator.model = model
  idle : generator.idle.Sound model generator.available

theorem sound_new (model : Model) : Sound model { model } where
  model_eq := rfl
  idle := Build.Sound.of_idle rfl rfl fun _ _ hnone => nomatch hnone

theorem generate_of_available (h : generator.available.lookup id = some place) :
    generator.generate id = some (place, generator) := by
  simp only [generate, h]

/-- A request is answered, and the answer is available from then on, as all that was before. -/
theorem generate_completes (hresolve : Model.resolve decl = .ok model)
    (hsound : Sound model generator) (hlt : id < model.types.length) :
    ∃ place generator', generator.generate id = some (place, generator') ∧
      Sound model generator' ∧ generator'.available.lookup id = some place ∧
      ∀ other inner, generator.available.lookup other = some inner →
        generator'.available.lookup other = some inner := by
  cases havailable : generator.available.lookup id with
  | some place =>
    exact ⟨place, generator, generate_of_available havailable, hsound, havailable,
      fun _ _ hother => hother⟩
  | none =>
    have hcard : (generator.idle.unbegun model).card ≤ model.types.length := by
      exact (Finset.card_filter_le _ _).trans (Finset.card_range _).le
    -- Nothing has been begun, so the types of the model are as many as can be begun.
    obtain ⟨root, build, hbuild, hbuilt, hgrows, hhome⟩ :=
      Build.input_builds hresolve generator.available model.types.length id generator.idle
        hsound.idle havailable rfl hlt hcard
    have hroot : build.finished.lookup id = some root := by
      rwa [Build.home?, havailable, Option.none_or] at hhome
    let available := publish
      ((build.finished.filter (·.1 ≠ id)).foldl publish generator.available) (id, root)
    have hlookup : ∀ other, available.lookup other = build.home? generator.available other :=
      lookup_published hroot generator.available
    have hserves : ∀ slot other, build.Serves generator.available slot other →
        Build.Serves available { inputs := build.inputs, slots := build.slots } slot other :=
      serves_published hbuilt (fun other ref => hgrows.done other ref rfl) hlookup
    refine ⟨root, { generator with inputs := build.inputs, slots := build.slots, available }, ?_,
      ⟨hsound.model_eq, ?_⟩, ?_, ?_⟩
    · have hplace : available.lookup id = some root := (hlookup id).trans hhome
      simp only [generate, havailable, hsound.model_eq, hbuild, Option.bind_eq_bind,
        Option.bind_some]
      change (available.lookup id).bind _ = _
      rw [hplace]
      rfl
    · apply Build.Sound.of_idle rfl rfl
      intro other inner hplace
      obtain ⟨input, stored, hinput, hstored, hshows⟩ :=
        hbuilt.shows other inner ((hlookup other).symm.trans hplace)
      exact ⟨input, stored, hinput, hstored, hshows.mono hserves⟩
    · exact (hlookup id).trans hhome
    · intro other inner hother
      refine (hlookup other).trans ?_
      rw [Build.home?, hother, Option.some_or]

/-! ### Reading an available input -/

/-- A slot serves a type between requests: it holds the available input of the type. -/
theorem get_of_serves {ref : SlotRef}
    (hserves : generator.idle.Serves generator.available ref.slot id) :
    ∃ place, generator.get ref = .ok place ∧ generator.available.lookup id = some place := by
  cases hserves with
  | @holds place hslot hhome =>
    have hheld : generator.slots[ref.slot]? = some (some place) := hslot
    refine ⟨place, by rw [get, hheld], ?_⟩
    rcases Option.or_eq_some_iff.1 hhome with h | ⟨-, hnone⟩
    · exact h
    · cases hnone
  | awaits hbegun => cases hbegun

theorem home?_idle (hplace : generator.available.lookup id = some place) :
    generator.idle.home? generator.available id = some place := by
  rw [Build.home?, hplace, Option.some_or]

theorem Sound.exists_stored (hsound : Sound model generator)
    (hplace : generator.available.lookup id = some place) :
    ∃ type stored, model.type? id = some type ∧ generator.inputs[place]? = some stored ∧
      stored.Shows (generator.idle.Serves generator.available) (CreateInput.ofType model type) := by
  obtain ⟨input, stored, hinput, hstored, hshows⟩ := hsound.idle.shows id place (home?_idle hplace)
  obtain ⟨type, htype, rfl⟩ := Model.createInput?_eq_some_iff.1 hinput
  exact ⟨type, stored, htype, hstored, hshows⟩

section Read

variable (hresolve : Model.resolve decl = .ok model) (hsound : Sound model generator)

include hresolve hsound

theorem objectType_of_available {stored : StoredInput}
    (hplace : generator.available.lookup id = some place)
    (hstored : generator.inputs[place]? = some stored) : stored.objectType = id := by
  obtain ⟨type, stored', htype, hstored', hshows⟩ := hsound.exists_stored hplace
  obtain ⟨_, -, hresolved⟩ := Model.resolved_type hresolve htype
  rw [hstored] at hstored'
  cases hstored'
  rw [hshows.objectType_eq]
  exact hresolved.id_eq

theorem readRef?_of_serves {ref : SlotRef}
    (hserves : generator.idle.Serves generator.available ref.slot id) :
    generator.readRef? ref = some ⟨ref.name, id⟩ := by
  obtain ⟨place, hget, hplace⟩ := get_of_serves hserves
  obtain ⟨type, stored, -, hstored, -⟩ := hsound.exists_stored hplace
  have hid := objectType_of_available hresolve hsound hplace hstored
  simp [readRef?, hget, Except.toOption, hstored, hid]

theorem readField?_of_shows {stored : StoredField} {field : InputField}
    (hshows : stored.Shows (generator.idle.Serves generator.available) field) :
    generator.readField? stored = some field := by
  have hkind : generator.readKind? stored.kind = some field.kind := by
    have hkinds := hshows.kind
    generalize stored.kind = kind at hkinds
    generalize field.kind = kind' at hkinds
    cases hkinds with
    | basic | basicList | relation => rfl
    | object href | objectList href =>
      rw [readKind?, readRef?_of_serves hresolve hsound href, Option.map_some]
  simp only [readField?, hkind, Option.bind_eq_bind, Option.bind_some, hshows.name_eq,
    hshows.field_eq, hshows.default_eq, hshows.type_eq]
  rfl

theorem readFields_of_shows {stored : List StoredField} {fields : List InputField}
    (hshows : List.Forall₂
      (StoredField.Shows (generator.idle.Serves generator.available)) stored fields) :
    stored.mapM generator.readField? = some fields := by
  induction hshows with
  | nil => rfl
  | cons hfirst _ ih =>
    rw [List.mapM_cons, readField?_of_shows hresolve hsound hfirst, ih]
    rfl

/-- An available input, read with its references, is the one that the model describes. -/
theorem read?_of_available (hplace : generator.available.lookup id = some place) :
    ∃ input, model.createInput? id = some input ∧ generator.read? place = some input := by
  obtain ⟨type, stored, htype, hstored, hshows⟩ := hsound.exists_stored hplace
  refine ⟨CreateInput.ofType model type, Model.createInput?_eq_some_iff.2 ⟨type, htype, rfl⟩, ?_⟩
  simp only [read?, hstored, readFields_of_shows hresolve hsound hshows.fields,
    Option.bind_eq_bind, Option.bind_some, hshows.name_eq, hshows.objectType_eq, hshows.server_eq]
  rfl

end Read

end InputGenerator

/-! ### Following references -/

def ObjectType.embedded? (type : ObjectType) (name : String) : Option TypeId := do
  let field ← (type.fields.filter (!·.system)).find? (·.name == name)
  if field.relation || field.reference then none else field.type.target?

/-- The object type to which the names of embedding fields lead from a type. -/
def Model.along? (model : Model) (id : TypeId) : List String → Option TypeId
  | [] => some id
  | name :: path => do
    let type ← model.type? id
    let target ← type.embedded? name
    model.along? target path

def InputGenerator.along? (generator : InputGenerator) (place : Nat) : List String → Option Nat
  | [] => some place
  | name :: path => do
    let input ← generator.inputs[place]?
    let field ← input.fields.find? (·.name == name)
    let ref ← field.kind.ref?
    let next ← (generator.get ref).toOption
    generator.along? next path

theorem StoredField.find?_shows {serves : Nat → TypeId → Prop} {stored : List StoredField}
    {fields : List InputField} (h : List.Forall₂ (StoredField.Shows serves) stored fields)
    (name : String) :
    stored.find? (·.name == name) = none ∧ fields.find? (·.name == name) = none ∨
      ∃ first field, stored.find? (·.name == name) = some first ∧
        fields.find? (·.name == name) = some field ∧ first.Shows serves field := by
  induction h with
  | nil => exact .inl ⟨rfl, rfl⟩
  | @cons first field rest others hfirst _ ih =>
    by_cases hname : field.name = name
    · have hname' : first.name = name := hfirst.name_eq.trans hname
      exact .inr ⟨first, field, by simp [hname'], by simp [hname], hfirst⟩
    · have hname' : first.name ≠ name := by rwa [hfirst.name_eq]
      simpa [List.find?_cons, beq_eq_false_iff_ne.2 hname, beq_eq_false_iff_ne.2 hname'] using ih

theorem CreateInput.find?_ofType (model : Model) (type : ObjectType) (name : String) :
    (CreateInput.ofType model type).fields.find? (·.name == name) =
      ((type.fields.filter (!·.system)).find? (·.name == name)).map (inputField model) := by
  rw [CreateInput.ofType, List.find?_map]
  rfl

def InputKind.target? : InputKind → Option TypeId
  | .object nested | .objectList nested => some nested.target
  | _ => none

theorem StoredKind.ref?_shows {serves : Nat → TypeId → Prop} {stored : StoredKind}
    {kind : InputKind} (h : stored.Shows serves kind) :
    stored.ref? = none ∧ kind.target? = none ∨
      ∃ ref target, stored.ref? = some ref ∧ kind.target? = some target ∧
        serves ref.slot target := by
  cases h with
  | basic | basicList | relation => exact .inl ⟨rfl, rfl⟩
  | object href | objectList href => exact .inr ⟨_, _, rfl, rfl, href⟩

/-- An input field nests the type that the field of the model embeds. -/
theorem CreateInput.target?_inputField (model : Model) (field : Field) :
    (inputField model field).kind.target? =
      if field.relation || field.reference then none else field.type.target? := by
  rw [inputField, shape]
  cases htype : field.type with
  | scalar name | enumeration name =>
    cases hlist : field.list <;> simp [leaf, InputKind.target?, FieldType.target?]
  | object target =>
    cases hrelation : field.relation <;> cases hreference : field.reference <;>
      cases hlist : field.list <;>
        simp [leaf, relation, embedded, InputKind.target?, FieldType.target?]

/-- From an available input, references lead to available inputs, the way the fields of the model
lead to types. The induction is on the path. -/
theorem InputGenerator.along?_of_available {model : Model} {generator : InputGenerator}
    (hsound : Sound model generator) (path : List String) {id : TypeId} {place : Nat}
    (hplace : generator.available.lookup id = some place) :
    model.along? id path = none ∧ generator.along? place path = none ∨
      ∃ type inner, model.along? id path = some type ∧ generator.along? place path = some inner ∧
        generator.available.lookup type = some inner := by
  induction path generalizing id place with
  | nil => exact .inr ⟨id, place, rfl, rfl, hplace⟩
  | cons name path ih =>
    obtain ⟨type, stored, htype, hstored, hshows⟩ := hsound.exists_stored hplace
    simp only [Model.along?, InputGenerator.along?, htype, hstored, ObjectType.embedded?,
      Option.bind_eq_bind, Option.bind_some]
    rcases StoredField.find?_shows hshows.fields name with
      ⟨hnone, hnone'⟩ | ⟨first, field, hfirst, hfield, hshown⟩
    · rw [CreateInput.find?_ofType, Option.map_eq_none_iff] at hnone'
      exact .inl ⟨by rw [hnone']; rfl, by rw [hnone]; rfl⟩
    · rw [CreateInput.find?_ofType, Option.map_eq_some_iff] at hfield
      obtain ⟨source, hsource, rfl⟩ := hfield
      rw [hsource, hfirst]
      simp only [Option.bind_some]
      have htarget := CreateInput.target?_inputField model source
      rcases StoredKind.ref?_shows hshown.kind with
        ⟨href, hnone⟩ | ⟨ref, target, href, hsome, hserves⟩
      · rw [← htarget, hnone, href]
        exact .inl ⟨rfl, rfl⟩
      · obtain ⟨next, hget, hnext⟩ := get_of_serves hserves
        rw [← htarget, hsome, href]
        simp only [Option.bind_some, hget, Except.toOption]
        exact ih hnext

/-! ### Sequences of requests -/

inductive Request where
  | byPosition (id : TypeId)
  | byName (typeName : String)
  deriving DecidableEq, Repr

namespace Request

def type? (model : Model) : Request → Option TypeId
  | .byPosition id => (model.type? id).map fun _ => id
  | .byName typeName => (model.find? typeName).map (·.id)

theorem lt_of_type? {decl : ModelDecl} {model : Model} (hresolve : Model.resolve decl = .ok model)
    {request : Request} {id : TypeId} (hid : request.type? model = some id) :
    id < model.types.length := by
  cases request with
  | byPosition position =>
    obtain ⟨type, htype, rfl⟩ := Option.map_eq_some_iff.1 hid
    exact (List.getElem?_eq_some_iff.1 htype).1
  | byName typeName =>
    obtain ⟨type, hfind, rfl⟩ := Option.map_eq_some_iff.1 hid
    obtain ⟨index, hindex⟩ := List.mem_iff_getElem?.1 (List.mem_of_find?_eq_some hfind)
    obtain ⟨_, -, hresolved⟩ := Model.resolved_type hresolve hindex
    rw [hresolved.id_eq]
    exact (List.getElem?_eq_some_iff.1 hindex).1

end Request

namespace InputGenerator

def answer (generator : InputGenerator) : Request → Option (Nat × InputGenerator)
  | .byPosition id => generator.generate id
  | .byName typeName => (generator.generateByName typeName).toOption.join

def answerAll (generator : InputGenerator) : List Request → Option (List Nat × InputGenerator)
  | [] => some ([], generator)
  | request :: rest => do
    let (place, generator) ← generator.answer request
    let (places, generator) ← generator.answerAll rest
    return (place :: places, generator)

variable {decl : ModelDecl} {model : Model} {generator : InputGenerator}

theorem answer_eq (hmodel : generator.model = model) {request : Request} {id : TypeId}
    (hid : request.type? model = some id) : generator.answer request = generator.generate id := by
  cases request with
  | byPosition position =>
    obtain ⟨_, -, rfl⟩ := Option.map_eq_some_iff.1 hid
    rfl
  | byName typeName =>
    obtain ⟨type, hfind, rfl⟩ := Option.map_eq_some_iff.1 hid
    rw [answer, generateByName, typeOf?, hmodel, hfind]
    rfl

/-- A sequence of requests is answered, and each answer stays available. -/
theorem answerAll_completes (hresolve : Model.resolve decl = .ok model)
    (hsound : Sound model generator) {requests : List Request}
    (hexist : ∀ request ∈ requests, (request.type? model).isSome) :
    ∃ places generator', generator.answerAll requests = some (places, generator') ∧
      Sound model generator' ∧
      List.Forall₂ (fun request place => ∃ id, request.type? model = some id ∧
        generator'.available.lookup id = some place) requests places ∧
      ∀ id place, generator.available.lookup id = some place →
        generator'.available.lookup id = some place := by
  induction requests generalizing generator with
  | nil => exact ⟨[], generator, rfl, hsound, .nil, fun _ _ h => h⟩
  | cons request rest ih =>
    obtain ⟨id, hid⟩ := Option.isSome_iff_exists.1 (hexist request List.mem_cons_self)
    obtain ⟨place, middle, hanswer, hsound', hplace, hkept⟩ :=
      generate_completes hresolve hsound (Request.lt_of_type? hresolve hid)
    obtain ⟨places, last, hrest, hsound'', hplaces, hkept'⟩ :=
      ih hsound' fun other hother => hexist other (List.mem_cons_of_mem _ hother)
    refine ⟨place :: places, last, ?_, hsound'', ?_, ?_⟩
    · rw [answerAll, answer_eq hsound.model_eq hid, hanswer]
      simp only [Option.bind_eq_bind, Option.bind_some, hrest]
      rfl
    · exact .cons ⟨id, hid, hkept' id place hplace⟩ hplaces
    · intro other inner hother
      exact hkept' other inner (hkept other inner hother)

/-! ### Answers -/

structure Holds (model : Model) (generator : InputGenerator) (id : TypeId) (place : Nat) : Prop where
  reads : ∃ input, model.createInput? id = some input ∧ generator.read? place = some input
  /-- Each reference leads to the Create input of the type that the field of the model has. -/
  resolves : ∀ stored field ref, generator.inputs[place]? = some stored → field ∈ stored.fields →
    field.kind.ref? = some ref → ∃ source target inner input, model.field? field.field = some source ∧
      source.type = .object target ∧ generator.get ref = .ok inner ∧
      model.createInput? target = some input ∧ generator.read? inner = some input
  /-- Whatever is requested in between, a request for the type is answered with this place. -/
  stays : ∀ later : List Request, (∀ request ∈ later, (request.type? model).isSome) →
    ∃ places generator', generator.answerAll later = some (places, generator') ∧
      ∀ request : Request, request.type? model = some id →
        generator'.answer request = some (place, generator')

theorem target?_eq_some_iff {type : FieldType} {target : TypeId} :
    type.target? = some target ↔ type = .object target := by
  cases type <;> simp [FieldType.target?]

/-- A stored reference serves the type of the field that it stands at. -/
theorem get_of_mem (hresolve : Model.resolve decl = .ok model) (hsound : Sound model generator)
    {id : TypeId} {place : Nat} {stored : StoredInput} {field : StoredField} {ref : SlotRef}
    (hplace : generator.available.lookup id = some place)
    (hstored : generator.inputs[place]? = some stored) (hfield : field ∈ stored.fields)
    (href : field.kind.ref? = some ref) :
    ∃ source target inner, model.field? field.field = some source ∧ source.type = .object target ∧
      generator.get ref = .ok inner ∧ generator.available.lookup target = some inner := by
  obtain ⟨type, stored', htype, hstored', hshows⟩ := hsound.exists_stored hplace
  rw [hstored] at hstored'
  cases hstored'
  obtain ⟨shown, hshown, hfieldShows⟩ := Results.exists_of_mem_left hshows.fields hfield
  obtain ⟨source, hsource, -, rfl⟩ := CreateInput.mem_fields_ofType.1 hshown
  have hposition : model.field? field.field = some source := by
    rw [hfieldShows.field_eq]
    exact Model.field?_of_mem hresolve htype hsource
  rcases StoredKind.ref?_shows hfieldShows.kind with ⟨hnone, -⟩ | ⟨ref', target, href', hsome, hserves⟩
  · rw [href] at hnone
    cases hnone
  · rw [href] at href'
    cases href'
    obtain ⟨inner, hget, hinner⟩ := get_of_serves hserves
    refine ⟨source, target, inner, hposition, ?_, hget, hinner⟩
    rw [CreateInput.target?_inputField] at hsome
    split at hsome
    · cases hsome
    · exact target?_eq_some_iff.1 hsome

theorem holds_of_available (hresolve : Model.resolve decl = .ok model)
    (hsound : Sound model generator) {id : TypeId} {place : Nat}
    (hplace : generator.available.lookup id = some place) : Holds model generator id place where
  reads := read?_of_available hresolve hsound hplace
  resolves stored field ref hstored hfield href := by
    obtain ⟨source, target, inner, hsource, htype, hget, hinner⟩ :=
      get_of_mem hresolve hsound hplace hstored hfield href
    obtain ⟨input, hinput, hread⟩ := read?_of_available hresolve hsound hinner
    exact ⟨source, target, inner, input, hsource, htype, hget, hinput, hread⟩
  stays later hexist := by
    obtain ⟨places, generator', hanswers, hsound', -, hkept⟩ :=
      answerAll_completes hresolve hsound hexist
    refine ⟨places, generator', hanswers, fun request hid => ?_⟩
    rw [answer_eq hsound'.model_eq hid]
    exact generate_of_available (hkept id place hplace)

/-- Two generators that have an input of one type available show the same one, at every depth. -/
theorem read?_along?_eq {other : InputGenerator} (hresolve : Model.resolve decl = .ok model)
    (hsound : Sound model generator) (hsound' : Sound model other) {id : TypeId} {place place' : Nat}
    (hplace : generator.available.lookup id = some place)
    (hplace' : other.available.lookup id = some place') (path : List String) :
    (generator.along? place path).bind generator.read? =
      (other.along? place' path).bind other.read? := by
  rcases along?_of_available hsound path hplace with
    ⟨hnone, hleft⟩ | ⟨type, inner, hsome, hleft, hinner⟩
  · rcases along?_of_available hsound' path hplace' with ⟨-, hright⟩ | ⟨type, _, hsome, -, -⟩
    · rw [hleft, hright]
      rfl
    · rw [hnone] at hsome
      cases hsome
  · rcases along?_of_available hsound' path hplace' with
      ⟨hnone, -⟩ | ⟨type', inner', hsome', hright, hinner'⟩
    · rw [hnone] at hsome
      cases hsome
    · rw [hsome, Option.some.injEq] at hsome'
      subst hsome'
      obtain ⟨input, hinput, hread⟩ := read?_of_available hresolve hsound hinner
      obtain ⟨input', hinput', hread'⟩ := read?_of_available hresolve hsound' hinner'
      rw [hinput, Option.some.injEq] at hinput'
      rw [hleft, hright, Option.bind_some, Option.bind_some, hread, hread', hinput']

/-- One generator answers every sequence of requests for existing types. Each answer is, along every
path of embedding fields, what a new generator answers, and the generator holds it and all that it
nests for good. -/
theorem answers_independent_of_history (hresolve : Model.resolve decl = .ok model)
    (requests : List Request) (hexist : ∀ request ∈ requests, (request.type? model).isSome) :
    ∃ places generator, ({ model } : InputGenerator).answerAll requests = some (places, generator) ∧
      List.Forall₂ (fun request place => ∃ id, request.type? model = some id ∧
          (∃ fresh alone, ({ model } : InputGenerator).answer request = some (fresh, alone) ∧
            ∀ path, (generator.along? place path).bind generator.read? =
              (alone.along? fresh path).bind alone.read?) ∧
          ∀ path, model.along? id path = none ∧ generator.along? place path = none ∨
            ∃ type inner, model.along? id path = some type ∧
              generator.along? place path = some inner ∧ generator.Holds model type inner)
        requests places := by
  obtain ⟨places, generator, hanswers, hsound, hplaces, -⟩ :=
    answerAll_completes hresolve (sound_new model) hexist
  refine ⟨places, generator, hanswers, hplaces.imp fun request place => ?_⟩
  rintro ⟨id, hid, hplace⟩
  refine ⟨id, hid, ?_, fun path => ?_⟩
  · obtain ⟨fresh, alone, hfresh, hsound', hplace', -⟩ :=
      generate_completes hresolve (sound_new model) (Request.lt_of_type? hresolve hid)
    refine ⟨fresh, alone, (answer_eq rfl hid).trans hfresh, fun path => ?_⟩
    exact read?_along?_eq hresolve hsound hsound' hplace hplace' path
  · rcases along?_of_available hsound path hplace with hnone | ⟨type, inner, htype, hinner, havailable⟩
    · exact .inl hnone
    · exact .inr ⟨type, inner, htype, hinner, holds_of_available hresolve hsound havailable⟩

/-- Nodes with leaves that have an owner: the types embed each other, and one embeds itself. The
node that the leaf nests is the answer to both requests for nodes. -/
theorem answers_of_nodes :
    let decl : ModelDecl :=
      { types :=
        [{ name := "Node", kind := .valueObject,
           fields := [{ name := "child", typeName := "Node" },
             { name := "leaves", typeName := "Leaf", list := true }] },
         { name := "Leaf", kind := .valueObject,
           fields := [{ name := "text", typeName := "String" },
             { name := "owner", typeName := "Node" }] }] }
    ∃ model, Model.resolve decl = .ok model ∧ ∃ generator,
      ({ model } : InputGenerator).answerAll [.byName "Leaf", .byPosition 0, .byName "Node"] =
        some ([1, 0, 0], generator) ∧
      generator.along? 1 ["owner"] = some 0 ∧ generator.Holds model 0 0 := by
  intro decl
  let requests := [Request.byName "Leaf", .byPosition 0, .byName "Node"]
  obtain ⟨model, hresolve, hexist, hleaf, hnode, built, hbuilt, howner⟩ :
      ∃ model, Model.resolve decl = .ok model ∧
        (∀ request ∈ requests, (request.type? model).isSome) ∧
        (Request.byName "Leaf").type? model = some 1 ∧ model.along? 1 ["owner"] = some 0 ∧
        ∃ built, ({ model } : InputGenerator).answerAll requests = some ([1, 0, 0], built) ∧
          built.along? 1 ["owner"] = some 0 :=
    ⟨_, rfl, by decide, rfl, rfl, _, rfl, rfl⟩
  obtain ⟨places, generator, hanswers, hplaces⟩ :=
    answers_independent_of_history hresolve requests hexist
  rw [hbuilt, Option.some.injEq, Prod.mk.injEq] at hanswers
  obtain ⟨rfl, rfl⟩ := hanswers
  obtain ⟨⟨id, hid, -, hanswer⟩, -⟩ := List.forall₂_cons.1 hplaces
  rw [hleaf, Option.some.injEq] at hid
  subst hid
  rcases hanswer ["owner"] with ⟨hnone, -⟩ | ⟨type, inner, htype, hinner, hholds⟩
  · rw [hnode] at hnone
    cases hnone
  · rw [hnode, Option.some.injEq] at htype
    rw [howner, Option.some.injEq] at hinner
    subst htype hinner
    exact ⟨model, hresolve, built, hbuilt, howner, hholds⟩

end InputGenerator

end EntitySchema
