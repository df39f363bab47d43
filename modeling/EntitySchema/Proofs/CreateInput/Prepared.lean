import EntitySchema.Proofs.CreateInput.Supplied
import EntitySchema.Proofs.Entries

/-! # The objects that preparation builds

Every object that a payload supplies is prepared, and the prepared object stands where the supplied
one does. Preparation at one position does what preparation at another one does, with identifiers
from another place of the supply. -/
namespace EntitySchema

def Creation.below (creation : Creation) (start : List PathStep) : Creation :=
  { creation with freshId := fun path => creation.freshId (path ++ start) }

theorem Creation.below_nil (creation : Creation) : creation.below [] = creation := by
  simp only [below, List.append_nil]

theorem Creation.below_below (creation : Creation) (start inside : List PathStep) :
    (creation.below start).below inside = creation.below (inside ++ start) := by
  simp only [below, List.append_assoc]

theorem Creation.properties_below (creation : Creation) (start path : List PathStep)
    (server : ServerProperties) :
    (creation.below start).properties path server = creation.properties (path ++ start) server := by
  cases server <;> rfl

theorem Creation.exists_properties {creation : Creation}
    (hnow : creation.now.rfc3339?.isSome = true) (path : List PathStep) (server : ServerProperties) :
    ∃ properties, creation.properties path server = .ok properties := by
  obtain ⟨now, hnow⟩ := Option.isSome_iff_exists.1 hnow
  cases server <;> simp [properties, hnow]

def TypeKind.serverNames : TypeKind → List String
  | .rootEntity => ["createdAt", "updatedAt"]
  | .childEntity => ["id", "createdAt", "updatedAt"]
  | .entityExtension | .valueObject | .object => []

theorem TypeKind.mem_serverNames {kind : TypeKind} {name : String} (h : name ∈ kind.serverNames) :
    kind.hasSystemFields = true ∧
      name ∈ [Names.idField, Names.createdAtField, Names.updatedAtField] := by
  cases kind with
  | rootEntity => exact ⟨rfl, List.mem_cons_of_mem _ h⟩
  | childEntity => exact ⟨rfl, h⟩
  | entityExtension | valueObject | object => cases h

theorem Creation.keys_properties {creation : Creation} {kind : TypeKind} {path : List PathStep}
    {properties : Json.Object}
    (h : creation.properties path (CreateInput.serverProperties kind) = .ok properties) :
    Entries.keys properties = kind.serverNames := by
  cases hnow : creation.now.rfc3339? with
  | none =>
    cases kind with
    | rootEntity | childEntity =>
      simp [Creation.properties, CreateInput.serverProperties, hnow] at h
    | entityExtension | valueObject | object =>
      cases h
      rfl
  | some now =>
    cases kind with
    | rootEntity | childEntity =>
      simp only [Creation.properties, CreateInput.serverProperties, hnow] at h
      cases h
      rfl
    | entityExtension | valueObject | object =>
      cases h
      rfl

def InputField.contributes (field : InputField) (payload : Json.Object) : Bool :=
  match field.kind with
  | .relation _ => false
  | _ => ((payload.get? field.name).or field.default).isSome

namespace Prepare

variable {model : Model} {creation : Creation} {prepare prepare' : Nested}

theorem within_eq_ok_iff {n : Nat} {id : TypeId} {path : List PathStep}
    {payload built : Json.Object} :
    within model creation (n + 1) id path payload = .ok built ↔
      ∃ input own server, model.createInput? id = some input ∧
        ownProperties (within model creation n) path payload input.fields = .ok own ∧
        creation.properties path input.server = .ok server ∧ built = own ++ server := by
  rw [within]
  cases model.createInput? id with
  | none => simp
  | some input =>
    simp only [Results.bind_eq_ok_iff, Results.mapError_eq_ok_iff, Option.some.injEq]
    constructor
    · rintro ⟨own, hown, server, hserver, hbuilt⟩
      cases hbuilt
      exact ⟨input, own, server, rfl, hown, hserver, rfl⟩
    · rintro ⟨_, own, server, rfl, hown, hserver, rfl⟩
      exact ⟨own, hown, server, hserver, rfl⟩

/-! ### The properties of an object -/

theorem ownProperties_cons {path : List PathStep} {payload own : Json.Object}
    {field : InputField} {rest : List InputField}
    (h : ownProperties prepare path payload (field :: rest) = .ok own) :
    (payload.get? field.name).or field.default = none ∧
        ownProperties prepare path payload rest = .ok own ∨
      ∃ value prepared others, (payload.get? field.name).or field.default = some value ∧
        property prepare path field value = .ok prepared ∧
        ownProperties prepare path payload rest = .ok others ∧
        own = (prepared.map fun p => (field.name, p)).toList ++ others := by
  rw [ownProperties] at h
  split at h
  · rename_i hnone
    exact .inl ⟨hnone, h⟩
  · rename_i value hvalue
    obtain ⟨prepared, hprepared, hnext⟩ := Results.bind_eq_ok_iff.1 h
    obtain ⟨others, hothers, heq⟩ := Results.bind_eq_ok_iff.1 hnext
    cases heq
    exact .inr ⟨value, prepared, others, hvalue, hprepared, hothers, rfl⟩

theorem isSome_of_property {path : List PathStep} {field : InputField} {value : Json}
    {prepared : Option Json} (h : property prepare path field value = .ok prepared)
    (hkind : ∀ toMany, field.kind ≠ .relation toMany) : prepared.isSome = true := by
  cases hfield : field.kind with
  | relation toMany => exact absurd hfield (hkind toMany)
  | basic =>
    simp only [property, hfield] at h
    cases h
    rfl
  | basicList =>
    simp only [property, hfield] at h
    split at h <;> cases h <;> rfl
  | object nested | objectList nested =>
    simp only [property, hfield] at h
    split at h
    · cases h
      rfl
    · obtain ⟨_, -, rfl⟩ := Results.map_eq_ok_iff.1 h
      rfl
    · cases h

/-- The properties have the names of the fields that contribute one, in field order. -/
theorem keys_ownProperties {path : List PathStep} {payload own : Json.Object}
    {fields : List InputField} (h : ownProperties prepare path payload fields = .ok own) :
    Entries.keys own = (fields.filter (·.contributes payload)).map (·.name) := by
  induction fields generalizing own with
  | nil =>
    cases h
    rfl
  | cons field rest ih =>
    rcases ownProperties_cons h with
      ⟨hnone, hrest⟩ | ⟨value, prepared, others, hvalue, hprepared, hothers, rfl⟩
    · have hout : ¬ field.contributes payload = true := by
        unfold InputField.contributes
        split <;> simp [hnone]
      rw [List.filter_cons, if_neg hout]
      exact ih hrest
    · cases hkind : field.kind with
      | relation toMany =>
        have hout : ¬ field.contributes payload = true := by
          simp [InputField.contributes, hkind]
        simp only [property, hkind] at hprepared
        cases hprepared
        rw [List.filter_cons, if_neg hout]
        exact ih hothers
      | basic | basicList | object | objectList =>
        have hin : field.contributes payload = true := by
          simp [InputField.contributes, hkind, hvalue]
        have hmade := isSome_of_property hprepared (by simp [hkind])
        obtain ⟨p, rfl⟩ := Option.isSome_iff_exists.1 hmade
        rw [List.filter_cons, if_pos hin, List.map_cons, ← ih hothers]
        rfl

theorem get?_ownProperties_of_not_mem {path : List PathStep} {payload own : Json.Object}
    {fields : List InputField} (h : ownProperties prepare path payload fields = .ok own)
    {name : String} (hname : name ∉ fields.map (·.name)) : own.get? name = none := by
  refine Entries.get?_eq_none_iff.2 fun hmem => ?_
  rw [keys_ownProperties h] at hmem
  exact hname ((List.filter_sublist.map _).subset hmem)

/-- A field that has a value, supplied or by default, has the property that the value becomes, and
another field has none. -/
theorem get?_ownProperties {path : List PathStep} {payload own : Json.Object}
    {fields : List InputField} (h : ownProperties prepare path payload fields = .ok own)
    (hnames : (fields.map (·.name)).Nodup) {field : InputField} (hfield : field ∈ fields) :
    match (payload.get? field.name).or field.default with
    | none => own.get? field.name = none
    | some value => property prepare path field value = .ok (own.get? field.name) := by
  induction fields generalizing own with
  | nil => cases hfield
  | cons first rest ih =>
    obtain ⟨hfirst, hrest⟩ := List.nodup_cons.1 hnames
    rcases ownProperties_cons h with
      ⟨hnone, hown⟩ | ⟨value, prepared, others, hvalue, hprepared, hothers, rfl⟩
    · rcases List.mem_cons.1 hfield with rfl | hmem
      · rw [hnone]
        exact get?_ownProperties_of_not_mem hown hfirst
      · exact ih hown hrest hmem
    · rw [Entries.get?_append]
      rcases List.mem_cons.1 hfield with rfl | hmem
      · rw [hvalue, get?_ownProperties_of_not_mem hothers hfirst]
        cases prepared with
        | none => exact hprepared
        | some p => simpa [Entries.get?_cons] using hprepared
      · have hne : first.name ≠ field.name := by
          intro heq
          exact hfirst (List.mem_map.2 ⟨field, hmem, heq.symm⟩)
        have hother : Entries.get? (prepared.map fun p => (first.name, p)).toList field.name =
            none := by
          cases prepared with
          | none => rfl
          | some p => simp [Entries.get?_cons, hne]
        rw [hother, Option.none_or]
        exact ih hothers hrest hmem

theorem items_getElem? {field : InputField} {target : TypeId} {path : List PathStep}
    {start : Nat} {values prepared : List Json}
    (h : items prepare field target path start values = .ok prepared) {index : Nat}
    {members : Json.Object} (hitem : values[index]? = some (.object members)) :
    ∃ object, prepare target (.item (start + index) :: path) members = .ok object ∧
      prepared[index]? = some (.object object) := by
  induction values generalizing start prepared index with
  | nil => cases hitem
  | cons first rest ih =>
    cases first with
    | object firstMembers =>
      rw [items] at h
      obtain ⟨object, hobject, hnext⟩ := Results.bind_eq_ok_iff.1 h
      obtain ⟨others, hothers, heq⟩ := Results.bind_eq_ok_iff.1 hnext
      cases heq
      cases index with
      | zero =>
        cases hitem
        exact ⟨object, hobject, rfl⟩
      | succ index =>
        obtain ⟨object', hobject', hget⟩ := ih hothers hitem
        rw [Nat.succ_add_eq_add_succ] at hobject'
        exact ⟨object', hobject', hget⟩
    | _ => simp [items, mismatch] at h

theorem property_object {field : InputField} {nested : NestedInput}
    (hkind : field.kind = .object nested) (path : List PathStep) (members : Json.Object) :
    property prepare path field (.object members) =
      (prepare nested.target (.field field.name :: path) members).map
        fun object => some (.object object) := by
  simp only [property, hkind]

theorem property_objectList {field : InputField} {nested : NestedInput}
    (hkind : field.kind = .objectList nested) (path : List PathStep) (values : List Json) :
    property prepare path field (.array values) =
      (items prepare field nested.target (.field field.name :: path) 0 values).map
        fun prepared => some (.array prepared) := by
  simp only [property, hkind]

/-! ### The prepared form of a supplied object -/

/-- A value that the payload has for a field of the input is prepared as the field says. -/
theorem property_of_within {n : Nat} {id : TypeId} {path : List PathStep}
    {payload built : Json.Object} (h : within model creation (n + 1) id path payload = .ok built)
    {input : CreateInput} (hinput : model.createInput? id = some input)
    (hnames : (input.fields.map (·.name)).Nodup) {field : InputField}
    (hfield : field ∈ input.fields) {value : Json} (hvalue : payload.get? field.name = some value) :
    ∃ prepared, property (within model creation n) path field value = .ok prepared ∧
      ∀ p, prepared = some p → built.get? field.name = some p := by
  obtain ⟨input', own, server, hsame, hown, -, rfl⟩ := within_eq_ok_iff.1 h
  rw [hinput] at hsame
  cases hsame
  have hor : (payload.get? field.name).or field.default = some value := by
    rw [hvalue]
    rfl
  have hproperty := get?_ownProperties hown hnames hfield
  rw [hor] at hproperty
  refine ⟨_, hproperty, ?_⟩
  intro p hp
  rw [Entries.get?_append, hp]
  rfl

/-- What is supplied at a position is prepared, and its prepared form stands there. -/
theorem built_of_supplied (hnames : ∀ {id : TypeId} {input : CreateInput},
      model.createInput? id = some input → (input.fields.map (·.name)).Nodup)
    {n : Nat} {id : TypeId} {payload prepared : Json.Object}
    (h : within model creation n id [] payload = .ok prepared) {path : List PathStep}
    {type : TypeId} {object : Json.Object}
    (hsupplied : Supplied model id payload path type object) :
    ∃ m built, within model creation m type path object = .ok built ∧
      (Json.object prepared).at? path = some (.object built) := by
  induction hsupplied with
  | root => exact ⟨n, prepared, h, rfl⟩
  | field outer hinput hfield hkind hvalue ih =>
    obtain ⟨m, built, hbuilt, hat⟩ := ih
    cases m with
    | zero => cases hbuilt
    | succ m =>
      obtain ⟨made, hmade, hget⟩ :=
        property_of_within hbuilt hinput (hnames hinput) hfield hvalue
      rw [property_object hkind] at hmade
      obtain ⟨inner, hinner, heq⟩ := Results.map_eq_ok_iff.1 hmade
      refine ⟨m, inner, hinner, ?_⟩
      rw [Json.at?, hat]
      exact hget _ heq.symm
  | item outer hinput hfield hkind hvalue hitem ih =>
    obtain ⟨m, built, hbuilt, hat⟩ := ih
    cases m with
    | zero => cases hbuilt
    | succ m =>
      obtain ⟨made, hmade, hget⟩ :=
        property_of_within hbuilt hinput (hnames hinput) hfield hvalue
      rw [property_objectList hkind] at hmade
      obtain ⟨values, hvalues, heq⟩ := Results.map_eq_ok_iff.1 hmade
      obtain ⟨inner, hinner, hplace⟩ := items_getElem? hvalues hitem
      rw [Nat.zero_add] at hinner
      refine ⟨m, inner, hinner, ?_⟩
      have hlist : built.get? _ = some (.array values) := hget _ heq.symm
      rw [Json.at?, Json.at?, hat]
      simp only [Option.bind_some, Json.follow?, hlist]
      exact hplace

/-! ### Preparing elsewhere -/

/-- What one preparation builds below a position, another one builds as well, where the position
of the first counts as the outermost one. -/
def Simulates (start : List PathStep) (prepare prepare' : Nested) : Prop :=
  ∀ id path payload built, prepare id (path ++ start) payload = .ok built →
    prepare' id path payload = .ok built

variable {start : List PathStep}

theorem items_simulates (h : Simulates start prepare prepare') {field : InputField}
    {target : TypeId} {path : List PathStep} {index : Nat} {values prepared : List Json}
    (hitems : items prepare field target (path ++ start) index values = .ok prepared) :
    items prepare' field target path index values = .ok prepared := by
  induction values generalizing index prepared with
  | nil => exact hitems
  | cons first rest ih =>
    cases first with
    | object members =>
      rw [items] at hitems
      obtain ⟨object, hobject, hnext⟩ := Results.bind_eq_ok_iff.1 hitems
      obtain ⟨others, hothers, heq⟩ := Results.bind_eq_ok_iff.1 hnext
      cases heq
      rw [items]
      refine Results.bind_eq_ok_iff.2 ⟨object, h _ (.item index :: path) _ _ hobject, ?_⟩
      exact Results.bind_eq_ok_iff.2 ⟨others, ih hothers, rfl⟩
    | _ => simp [items, mismatch] at hitems

theorem property_simulates (h : Simulates start prepare prepare') {field : InputField}
    {path : List PathStep} {value : Json} {prepared : Option Json}
    (hproperty : property prepare (path ++ start) field value = .ok prepared) :
    property prepare' path field value = .ok prepared := by
  cases hkind : field.kind with
  | basic | basicList | relation =>
    simp only [property, hkind] at hproperty ⊢
    exact hproperty
  | object nested =>
    cases value with
    | object members =>
      rw [property_object hkind] at hproperty ⊢
      obtain ⟨object, hobject, heq⟩ := Results.map_eq_ok_iff.1 hproperty
      exact Results.map_eq_ok_iff.2 ⟨object, h _ (.field field.name :: path) _ _ hobject, heq⟩
    | _ =>
      simp only [property, hkind] at hproperty ⊢
      exact hproperty
  | objectList nested =>
    cases value with
    | array values =>
      rw [property_objectList hkind] at hproperty ⊢
      obtain ⟨made, hmade, heq⟩ := Results.map_eq_ok_iff.1 hproperty
      have hmade' : items prepare' field nested.target (.field field.name :: path) 0 values =
          .ok made := items_simulates h hmade
      exact Results.map_eq_ok_iff.2 ⟨made, hmade', heq⟩
    | _ =>
      simp only [property, hkind] at hproperty ⊢
      exact hproperty

theorem ownProperties_simulates (h : Simulates start prepare prepare') {path : List PathStep}
    {payload own : Json.Object} {fields : List InputField}
    (hown : ownProperties prepare (path ++ start) payload fields = .ok own) :
    ownProperties prepare' path payload fields = .ok own := by
  induction fields generalizing own with
  | nil => exact hown
  | cons field rest ih =>
    rw [ownProperties]
    rcases ownProperties_cons hown with
      ⟨hnone, hrest⟩ | ⟨value, prepared, others, hvalue, hprepared, hothers, rfl⟩
    · rw [hnone]
      exact ih hrest
    · rw [hvalue]
      refine Results.bind_eq_ok_iff.2 ⟨prepared, property_simulates h hprepared, ?_⟩
      exact Results.bind_eq_ok_iff.2 ⟨others, ih hothers, rfl⟩

/-- A deeper bound and another position change nothing but where identifiers come from. -/
theorem within_simulates {n m : Nat} (h : n ≤ m) :
    Simulates start (within model creation n) (within model (creation.below start) m) := by
  induction n generalizing m with
  | zero =>
    intro id path payload built hbuilt
    cases hbuilt
  | succ n ih =>
    intro id path payload built hbuilt
    cases m with
    | zero => omega
    | succ m =>
      obtain ⟨input, own, server, hinput, hown, hserver, rfl⟩ := within_eq_ok_iff.1 hbuilt
      have hdeeper : Simulates start (within model creation n)
          (within model (creation.below start) m) := ih (by omega)
      refine within_eq_ok_iff.2 ⟨input, own, server, hinput, ?_, ?_, rfl⟩
      · exact ownProperties_simulates hdeeper hown
      · rw [Creation.properties_below]
        exact hserver

end Prepare

end EntitySchema
