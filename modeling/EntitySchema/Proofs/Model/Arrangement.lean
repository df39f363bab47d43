import EntitySchema.Proofs.Model.LinkTargets

/-! # How a resolved model is arranged

A model is read by position: a type by its own, a field by that of its type and its own in it, and
the type of a field's values by the one that the field holds. Positions are given out while the list
of types is still growing, and a field may name a type that stands behind it. In the resolved model
each of them leads to what it was given out for. -/
namespace EntitySchema

/-- An object type has what was declared. The fields of the system, if it has any, come first, and
the declared ones follow in their order. -/
structure TypeDecl.Becomes (declared : TypeDecl) (type : ObjectType) : Prop where
  name_eq : type.name = declared.name
  kind_eq : type.kind = declared.kind
  fields_eq : ∃ front rest, type.fields = front ++ rest ∧
    front.map (·.name) = declared.systemNames ∧ (∀ field ∈ front, field.system = true) ∧
    rest.map (·.name) = declared.fields.map (·.name) ∧ ∀ field ∈ rest, field.system = false

/-- Types and fields stand where they say, and refer to what is there. -/
structure Model.Arranged (decl : ModelDecl) (model : Model) : Prop where
  types : List.Forall₂ TypeDecl.Becomes decl.types model.types
  ids : ∀ (i : Nat) (type : ObjectType), model.types[i]? = some type → type.id = i
  /-- There is one type of a name, and the name finds it. -/
  named : ∀ name type, model.find? name = some type ↔ type ∈ model.types ∧ type.name = name
  /-- A field is found where it stands, and so is its path. -/
  placed : ∀ (i k : Nat) (type : ObjectType) (field : Field), model.types[i]? = some type →
    type.fields[k]? = some field → field.id = ⟨i, k⟩ ∧ model.field? ⟨i, k⟩ = some field ∧
      model.fieldPath? ⟨i, k⟩ = some (type.name ++ "." ++ field.name)
  distinct : ∀ type ∈ model.types, (type.fields.map (·.name)).Nodup
  /-- The objects in a field have a type, and are root entities only behind a link. -/
  targets : ∀ type ∈ model.types, ∀ field ∈ type.fields, ∀ id, field.type = .object id →
    ∃ target, model.type? id = some target ∧
      (target.kind = .rootEntity → field.relation = true ∨ field.reference = true)
  /-- The flag for child entities says that these are what the field holds, in a list. -/
  children : ∀ type ∈ model.types, ∀ field ∈ type.fields,
    (field.childEntities = true ↔
      ∃ target, model.targetType? field = some target ∧ target.kind = .childEntity) ∧
    (field.childEntities = true → field.list = true)

variable {decl : ModelDecl} {model : Model}

/-! ### Types -/

theorem ObjectType.Resolved.becomes {id : TypeId} {declared : TypeDecl} {type : ObjectType}
    (h : type.Resolved decl id declared) : declared.Becomes type := by
  refine ⟨h.name_eq, h.kind_eq, ?_⟩
  obtain ⟨added, hfields, hadded⟩ := h.fields_eq
  refine ⟨_, added, hfields, ModelDecl.names_systemFields id declared, fun field hfield =>
    (ModelDecl.mem_systemFields hfield).1, ?_, fun field hfield => ?_⟩
  · refine Results.map_eq_map_of_forall₂ hadded ?_
    rintro source field ⟨_, _, _, -, rfl⟩
    rfl
  · obtain ⟨_, -, _, _, _, -, rfl⟩ := Results.exists_of_mem_right hadded hfield
    rfl

namespace Model

theorem becomes_of_resolve (hresolve : Model.resolve decl = .ok model) :
    List.Forall₂ TypeDecl.Becomes decl.types model.types := by
  refine List.forall₂_iff_get.2 ⟨(length_types hresolve).symm, fun i hdecl htypes => ?_⟩
  obtain ⟨declared, hdeclared, hresolved⟩ :=
    resolved_type hresolve (List.getElem?_eq_getElem htypes)
  rw [List.getElem?_eq_getElem hdecl, Option.some.injEq] at hdeclared
  subst hdeclared
  exact hresolved.becomes

theorem names_nodup (hresolve : Model.resolve decl = .ok model) :
    (model.types.map (·.name)).Nodup := by
  rw [Results.map_eq_map_of_forall₂ (becomes_of_resolve hresolve) fun _ _ h => h.name_eq]
  exact (wellFormed_of_resolve hresolve).names

theorem find?_eq_some_iff (hresolve : Model.resolve decl = .ok model) {name : String}
    {type : ObjectType} :
    model.find? name = some type ↔ type ∈ model.types ∧ type.name = name := by
  constructor
  · intro h
    exact ⟨List.mem_of_find?_eq_some h, by simpa using List.find?_some h⟩
  · rintro ⟨hmem, rfl⟩
    cases hfound : model.find? type.name with
    | none => simpa using List.find?_eq_none.1 hfound type hmem
    | some other =>
      have hname : other.name = type.name := by simpa using List.find?_some hfound
      rw [List.inj_on_of_nodup_map (names_nodup hresolve) (List.mem_of_find?_eq_some hfound) hmem
        hname]

/-! ### Fields -/

theorem placed_of_resolve (hresolve : Model.resolve decl = .ok model) {i k : Nat}
    {type : ObjectType} {field : Field} (htype : model.type? i = some type)
    (hfield : type.fields[k]? = some field) : field.id = ⟨i, k⟩ ∧
      model.field? ⟨i, k⟩ = some field ∧
      model.fieldPath? ⟨i, k⟩ = some (type.name ++ "." ++ field.name) := by
  obtain ⟨_, -, hresolved⟩ := resolved_type hresolve htype
  have hfound : model.field? ⟨i, k⟩ = some field := by simp [field?, htype, hfield]
  exact ⟨hresolved.fieldsAt.position k field hfield, hfound, by simp [fieldPath?, htype, hfound]⟩

end Model

namespace ModelDecl

variable {type : TypeDecl} {declared : FieldDecl} {fieldType : FieldType} {childEntities : Bool}

/-- The flag comes from the kind of the type that is named, which stands anywhere in the list. -/
theorem childEntities_of_resolveType
    (h : decl.resolveType type declared = .ok (fieldType, childEntities)) :
    (childEntities = true ↔ ∃ id target, fieldType = .object id ∧ decl.types[id]? = some target ∧
      target.kind = .childEntity) ∧ (childEntities = true → declared.list = true) := by
  simp only [resolveType] at h
  split at h
  · rename_i id kind hlookup
    obtain ⟨target, htarget, -, rfl⟩ := getElem?_of_lookup? hlookup
    split_ifs at h with hlist
    cases h
    simp only [FieldType.object.injEq, exists_and_left, exists_eq_left', htarget,
      Option.some.injEq, decide_eq_true_eq, true_and]
    exact fun hchild => by simpa [hchild] using hlist
  · split_ifs at h <;> cases h <;> simp

end ModelDecl

namespace Model

theorem children_of_resolve (hresolve : Model.resolve decl = .ok model) {id : TypeId}
    {type : ObjectType} {field : Field} (htype : model.type? id = some type)
    (hfield : field ∈ type.fields) :
    (field.childEntities = true ↔
      ∃ target, model.targetType? field = some target ∧ target.kind = .childEntity) ∧
    (field.childEntities = true → field.list = true) := by
  obtain ⟨source, -, hresolved⟩ := resolved_type hresolve htype
  rcases hresolved.mem_systemFields_or hfield with hsystem | ⟨_, -, _, fieldType, _, hchecked, rfl⟩
  · obtain ⟨-, _, _, _, -, rfl⟩ := ModelDecl.eq_of_mem_systemFields hsystem
    simp [targetType?, FieldType.target?]
  · obtain ⟨hflag, hlist⟩ := ModelDecl.childEntities_of_resolveType hchecked
    refine ⟨hflag.trans ?_, hlist⟩
    simp only [targetType?_eq_some_iff]
    constructor
    · rintro ⟨target, declared, rfl, hdeclared, hkind⟩
      obtain ⟨child, hfound, hchild⟩ := exists_resolved_type hresolve hdeclared
      exact ⟨child, ⟨target, rfl, hfound⟩, hchild.kind_eq.trans hkind⟩
    · rintro ⟨child, ⟨target, hobject, hfound⟩, hkind⟩
      obtain ⟨declared, hdeclared, hchild⟩ := resolved_type hresolve hfound
      exact ⟨target, declared, hobject, hdeclared, hchild.kind_eq.symm.trans hkind⟩

theorem arranged_of_resolve (hresolve : Model.resolve decl = .ok model) : model.Arranged decl where
  types := becomes_of_resolve hresolve
  ids i type htype := by
    obtain ⟨_, -, hresolved⟩ := resolved_type hresolve htype
    exact hresolved.id_eq
  named _ _ := find?_eq_some_iff hresolve
  placed _ _ _ _ htype hfield := placed_of_resolve hresolve htype hfield
  distinct type hmem := by
    obtain ⟨_, -, hresolved⟩ := resolved_type hresolve (type?_id_of_mem hresolve hmem)
    exact hresolved.fieldsAt.names
  targets type hmem field hfield id hobject := by
    have htype := type?_id_of_mem hresolve hmem
    obtain ⟨_, hfound, htarget⟩ := exists_target hresolve htype hfield hobject
    exact ⟨_, hfound, (kind_of_targetType? hresolve htype hfield htarget).1⟩
  children type hmem field hfield :=
    children_of_resolve hresolve (type?_id_of_mem hresolve hmem) hfield

end Model

end EntitySchema
