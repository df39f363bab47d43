import EntitySchema.Proofs.CreateInput.Inputs
import EntitySchema.Proofs.Model.Violations
import EntitySchema.Proofs.Search.Routes

/-! # What relations and references link to

A link to an object type leads to a root entity, since resolving a declaration checks the kind of
the type. The check comes with the object type: a flag on a scalar or an enum is kept as it is.
Create inputs ask for the type of a field first and views for the relation flag, so such a field is
stored in the document and left out of the view over it. -/
namespace EntitySchema

/-! ### The rules for links -/

namespace Model

def LinksToRoots (model : Model) : Prop :=
  ∀ type ∈ model.types, ∀ field ∈ type.fields, field.relation = true ∨ field.reference = true →
    ∃ target, model.targetType? field = some target ∧ target.kind = .rootEntity

/-- Of the indexed fields, views link those that Create inputs store in the document. -/
def LinksWhatIsStored (model : Model) : Prop :=
  ∀ type ∈ model.types, ∀ field ∈ type.fields, field.system = false →
    field.search.indexed = true ∨ field.search.fulltext = true →
      ((∃ depth, Search.eligible depth [] field = true) ↔
        ∀ toMany, (CreateInput.inputField model field).kind ≠ .relation toMany)

end Model

def ModelDecl.NamesType (decl : ModelDecl) (field : FieldDecl) : Prop :=
  ∃ target ∈ decl.types, target.name = field.typeName

variable {decl : ModelDecl} {model : Model} {type : TypeDecl} {declared : FieldDecl}
  {childEntities : Bool}

/-! ### Resolved types -/

namespace ModelDecl

/-- An object type is named, and it is a root entity exactly if the field is a link. -/
theorem target_of_resolveType {id : TypeId}
    (h : decl.resolveType type declared = .ok (.object id, childEntities)) :
    ∃ target, decl.types[id]? = some target ∧ target.name = declared.typeName ∧
      (target.kind = .rootEntity ↔ declared.relation = true ∨ declared.reference = true) := by
  simp only [resolveType] at h
  split at h
  · rename_i found kind hlookup
    obtain ⟨target, htarget, hname, rfl⟩ := getElem?_of_lookup? hlookup
    split_ifs at h with hlist hembedded hlinked
    cases h
    refine ⟨target, htarget, hname, ?_⟩
    simp only [Bool.not_eq_true', Bool.not_eq_false, not_and, Bool.or_eq_true] at hembedded hlinked
    exact ⟨hembedded, fun hlink => by simpa using hlinked hlink⟩
  · split_ifs at h <;> cases h

/-- A field has an object type exactly if its declaration names one. -/
theorem namesType_iff_of_resolveType {fieldType : FieldType}
    (h : decl.resolveType type declared = .ok (fieldType, childEntities)) :
    decl.NamesType declared ↔ ∃ id, fieldType = .object id := by
  cases fieldType with
  | object id =>
    obtain ⟨target, htarget, hname, -⟩ := target_of_resolveType h
    exact iff_of_true ⟨target, List.mem_of_getElem? htarget, hname⟩ ⟨id, rfl⟩
  | scalar name | enumeration name =>
    refine iff_of_false ?_ (by simp)
    rintro ⟨target, htarget, hname⟩
    simp only [resolveType] at h
    split at h
    · split_ifs at h
      cases h
    · rename_i hlookup
      exact lookup?_eq_none hlookup target htarget hname

end ModelDecl

namespace Model

/-- The object type of a resolved field is a root entity exactly if the field is a link. -/
theorem target_of_resolveType (hresolve : Model.resolve decl = .ok model) {id : TypeId}
    (h : decl.resolveType type declared = .ok (.object id, childEntities)) :
    ∃ target, model.type? id = some target ∧
      (target.kind = .rootEntity ↔ declared.relation = true ∨ declared.reference = true) := by
  obtain ⟨source, hsource, -, hkind⟩ := ModelDecl.target_of_resolveType h
  obtain ⟨target, htarget, hresolved⟩ := exists_resolved_type hresolve hsource
  exact ⟨target, htarget, by rwa [hresolved.kind_eq]⟩

/-- What a field holds are root entities exactly if the field is a link. -/
theorem kind_of_targetType? (hresolve : Model.resolve decl = .ok model) {id : TypeId}
    {type target : ObjectType} {field : Field} (htype : model.type? id = some type)
    (hfield : field ∈ type.fields) (htarget : model.targetType? field = some target) :
    target.kind = .rootEntity ↔ field.relation = true ∨ field.reference = true := by
  obtain ⟨targetId, hobject, hfound⟩ := targetType?_eq_some_iff.1 htarget
  obtain ⟨_, -, hresolved⟩ := resolved_type hresolve htype
  obtain ⟨_, -, _, _, _, hresolves, rfl⟩ := hresolved.resolves_of_object hfield hobject
  cases hobject
  obtain ⟨_, hfound', hkind⟩ := target_of_resolveType hresolve hresolves
  cases hfound.symm.trans hfound'
  exact hkind

/-- What holds of the system fields, holds of all fields exactly if it does of the declared ones. -/
theorem forall_fields_iff (hresolve : Model.resolve decl = .ok model) {P : FieldDecl → Prop}
    {Q : Field → Prop} (hsystem : ∀ id type, ∀ field ∈ ModelDecl.systemFields id type, Q field)
    (hdeclared : ∀ type declared field, decl.Resolves type declared field →
      (Q field ↔ P declared)) :
    (∀ type ∈ model.types, ∀ field ∈ type.fields, Q field) ↔
      ∀ type ∈ decl.types, ∀ field ∈ type.fields, P field := by
  constructor
  · intro h source hsource declared hfield
    obtain ⟨id, hid⟩ := List.mem_iff_getElem?.1 hsource
    have hentry : (source, id) ∈ decl.types.zipIdx := List.mk_mem_zipIdx_iff_getElem?.2 hid
    obtain ⟨type, htype, hobject⟩ := Results.exists_of_mem_left (types_of_resolve hresolve) hentry
    obtain ⟨added, hfields, hadded⟩ := (ModelDecl.resolved_of_resolveObject hobject).fields_eq
    obtain ⟨field, hmem, hresolves⟩ := Results.exists_of_mem_left hadded hfield
    refine (hdeclared source declared field hresolves).1 (h type htype field ?_)
    rw [hfields]
    exact List.mem_append_right _ hmem
  · intro h type htype field hfield
    obtain ⟨id, hid⟩ := List.mem_iff_getElem?.1 htype
    obtain ⟨source, hsource, hresolved⟩ := resolved_type hresolve hid
    rcases hresolved.mem_systemFields_or hfield with hfront | ⟨declared, hmem, hresolves⟩
    · exact hsystem id source field hfront
    · exact (hdeclared source declared field hresolves).2
        (h source (List.mem_of_getElem? hsource) declared hmem)

end Model

/-! ### Where the rules hold -/

namespace Field

variable {field : Field}

theorem kind_ne_relation_iff :
    (∀ toMany, (CreateInput.inputField model field).kind ≠ .relation toMany) ↔ ¬ field.Relates := by
  rcases CreateInput.kind_cases model field with
    ⟨hplain, hkind⟩ | ⟨hrelates, hkind⟩ | ⟨target, name, hembeds, hkind⟩
  · rw [hkind]
    refine iff_of_true (fun toMany => ?_) hplain.not_relates
    split_ifs <;> simp
  · exact iff_of_false (fun h => h _ hkind) (not_not_intro hrelates)
  · rw [hkind]
    refine iff_of_true (fun toMany => ?_) hembeds.not_relates
    split_ifs <;> simp

/-- Views and Create inputs take an indexed field alike unless it is a relation to no objects. -/
theorem linked_iff_stored
    (hindexed : field.search.indexed = true ∨ field.search.fulltext = true) :
    ((∃ depth, Search.eligible depth [] field = true) ↔
        ∀ toMany, (CreateInput.inputField model field).kind ≠ .relation toMany) ↔
      (field.relation = true → ∃ target, field.type = .object target) := by
  have hlinked : (∃ depth, Search.eligible depth [] field = true) ↔ field.relation = false := by
    simp only [Search.eligible_iff, Linked, hindexed, true_and]
    constructor
    · rintro ⟨_, hrelation, -⟩
      exact hrelation
    · intro hrelation
      exact ⟨1, hrelation, Nat.one_pos⟩
  rw [hlinked, kind_ne_relation_iff, Relates]
  cases field.relation <;> simp

end Field

namespace Model

variable {field : Field}

theorem linksToRoots_field_iff (hresolve : Model.resolve decl = .ok model)
    (h : decl.Resolves type declared field) :
    (field.relation = true ∨ field.reference = true →
        ∃ target, model.targetType? field = some target ∧ target.kind = .rootEntity) ↔
      (declared.relation = true ∨ declared.reference = true → decl.NamesType declared) := by
  obtain ⟨id, fieldType, childEntities, htype, rfl⟩ := h
  refine imp_congr_right fun hlink => ?_
  rw [ModelDecl.namesType_iff_of_resolveType htype]
  constructor
  · rintro ⟨_, htarget, -⟩
    obtain ⟨target, hobject, -⟩ := targetType?_eq_some_iff.1 htarget
    exact ⟨target, hobject⟩
  · rintro ⟨target, rfl⟩
    obtain ⟨found, hfound, hkind⟩ := target_of_resolveType hresolve htype
    exact ⟨found, targetType?_eq_some_iff.2 ⟨target, rfl, hfound⟩, hkind.2 hlink⟩

theorem linksWhatIsStored_field_iff (h : decl.Resolves type declared field) :
    (field.system = false → field.search.indexed = true ∨ field.search.fulltext = true →
        ((∃ depth, Search.eligible depth [] field = true) ↔
          ∀ toMany, (CreateInput.inputField model field).kind ≠ .relation toMany)) ↔
      (declared.indexed = true ∨ declared.fulltext = true → declared.relation = true →
        decl.NamesType declared) := by
  obtain ⟨id, fieldType, childEntities, htype, rfl⟩ := h
  have hsystem : (declared.toField id fieldType childEntities).system = false := rfl
  rw [imp_iff_right hsystem]
  refine imp_congr_right fun hindexed => ?_
  rw [Field.linked_iff_stored hindexed, ModelDecl.namesType_iff_of_resolveType htype]
  rfl

/-- All links lead to root entities exactly if each flagged field names an object type, and views
and Create inputs take the indexed fields alike exactly if each indexed relation does. -/
theorem linksToRoots_iff (hresolve : Model.resolve decl = .ok model) :
    (model.LinksToRoots ↔ ∀ type ∈ decl.types, ∀ field ∈ type.fields,
      field.relation = true ∨ field.reference = true → decl.NamesType field) ∧
    (model.LinksWhatIsStored ↔ ∀ type ∈ decl.types, ∀ field ∈ type.fields,
      field.indexed = true ∨ field.fulltext = true → field.relation = true →
        decl.NamesType field) := by
  constructor
  · refine forall_fields_iff hresolve (fun id type field hfield hlink => ?_)
      fun type declared field h => linksToRoots_field_iff hresolve h
    obtain ⟨-, hrelation, hreference, -⟩ := ModelDecl.flags_of_mem_systemFields hfield
    simp [hrelation, hreference] at hlink
  · refine forall_fields_iff hresolve (fun id type field hfield hdeclared => ?_)
      fun type declared field h => linksWhatIsStored_field_iff h
    obtain ⟨hsystem, -⟩ := ModelDecl.mem_systemFields hfield
    rw [hsystem] at hdeclared
    cases hdeclared

/-- An order has a customer as a relation and a country as a reference, and both are indexed. -/
theorem links_of_order_to_roots :
    let customer : FieldDecl :=
      { name := "customer", typeName := "Customer", relation := true, indexed := true }
    let country : FieldDecl :=
      { name := "country", typeName := "Country", reference := true, indexed := true }
    let decl : ModelDecl :=
      { types :=
        [{ name := "Order", kind := .rootEntity, fields := [customer, country] },
         { name := "Customer", kind := .rootEntity }, { name := "Country", kind := .rootEntity }] }
    ∃ model, Model.resolve decl = .ok model ∧ model.LinksToRoots ∧ model.LinksWhatIsStored := by
  intro customer country decl
  obtain ⟨model, hresolve⟩ : ∃ model, Model.resolve decl = .ok model := ⟨_, rfl⟩
  obtain ⟨hroots, hstored⟩ := linksToRoots_iff hresolve
  have hnames : ∀ type ∈ decl.types, ∀ field ∈ type.fields, decl.NamesType field := by
    unfold ModelDecl.NamesType
    decide
  exact ⟨model, hresolve, hroots.2 fun type htype field hfield _ => hnames type htype field hfield,
    hstored.2 fun type htype field hfield _ _ => hnames type htype field hfield⟩

/-- A code that is flagged as a relation is stored in the document of an order, and no view has a
link for it. -/
theorem code_is_a_relation_to_nothing :
    let code : FieldDecl :=
      { name := "code", typeName := "String", relation := true, indexed := true }
    let decl : ModelDecl :=
      { types :=
        [{ name := "Order", kind := .rootEntity, fields := [code], searchIndexed := true }] }
    ∃ model, Model.resolve decl = .ok model ∧ ¬ model.LinksToRoots ∧
      ¬ model.LinksWhatIsStored := by
  intro code decl
  obtain ⟨model, hresolve, order, horder, field, hfield, hsystem, hrelation, hindexed, htarget,
      hkind⟩ :
      ∃ model, Model.resolve decl = .ok model ∧ ∃ order ∈ model.types, ∃ field ∈ order.fields,
        field.system = false ∧ field.relation = true ∧ field.search.indexed = true ∧
        model.targetType? field = none ∧ (CreateInput.inputField model field).kind = .basic :=
    ⟨_, rfl, _, List.mem_cons_self, _, List.mem_of_getElem? (i := 3) rfl, rfl, rfl, rfl, rfl, rfl⟩
  refine ⟨model, hresolve, fun hroots => ?_, fun hstored => ?_⟩
  · obtain ⟨target, hsome, -⟩ := hroots order horder field hfield (.inl hrelation)
    rw [htarget] at hsome
    cases hsome
  · obtain ⟨depth, heligible⟩ := (hstored order horder field hfield hsystem (.inl hindexed)).2
      (by simp [hkind])
    rw [(Search.eligible_iff.1 heligible).1.2] at hrelation
    cases hrelation

end Model

end EntitySchema
