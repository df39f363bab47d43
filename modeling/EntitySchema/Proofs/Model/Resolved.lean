import EntitySchema.Model.Resolve
import EntitySchema.Proofs.Results
import Mathlib.Data.List.Nodup

/-! # What resolving a declaration establishes

Types and fields stand at the positions that their identifiers name, the fields of a type have
distinct names, and the system fields of an entity stand in front of the declared ones. -/
namespace EntitySchema

structure FieldsAt (id : TypeId) (fields : List Field) : Prop where
  position : ∀ (index : Nat) (field : Field), fields[index]? = some field → field.id = ⟨id, index⟩
  names : (fields.map (·.name)).Nodup

def FieldDecl.toField (declared : FieldDecl) (id : FieldId) (type : FieldType)
    (childEntities : Bool) : Field :=
  { id, name := declared.name, type, list := declared.list, system := false,
    default := declared.default, relation := declared.relation,
    reference := declared.reference, childEntities,
    search :=
      { indexed := declared.indexed, fulltext := declared.fulltext,
        caseSensitive := declared.caseSensitive, language := declared.language } }

namespace ModelDecl

variable {decl : ModelDecl} {id : TypeId} {type : TypeDecl}

theorem addField_eq_ok_iff {fields fields' : List Field} {declared : FieldDecl} :
    decl.addField id type fields declared = .ok fields' ↔
      (∀ field ∈ fields, field.name ≠ declared.name) ∧ ∃ fieldType childEntities,
        decl.resolveType type declared = .ok (fieldType, childEntities) ∧
        fields' = fields ++ [declared.toField ⟨id, fields.length⟩ fieldType childEntities] := by
  have hany : fields.any (·.name == declared.name) = false ↔
      ∀ field ∈ fields, field.name ≠ declared.name := by
    simp
  rw [← hany, addField]
  cases fields.any (·.name == declared.name) with
  | true => simp [throw, throwThe, MonadExceptOf.throw, bind, Except.bind]
  | false =>
    simp only [Bool.false_eq_true, if_false, true_and, Results.bind_eq_ok_iff, Prod.exists]
    refine exists_congr fun fieldType => exists_congr fun childEntities => ?_
    refine and_congr_right fun _ => ?_
    simp [pure, Except.pure, FieldDecl.toField, eq_comm]

theorem fieldsAt_addField {fields fields' : List Field} {declared : FieldDecl}
    (h : FieldsAt id fields) (hadd : decl.addField id type fields declared = .ok fields') :
    FieldsAt id fields' := by
  obtain ⟨hnew, fieldType, childEntities, -, rfl⟩ := addField_eq_ok_iff.1 hadd
  constructor
  · intro index field hget
    rcases Nat.lt_trichotomy index fields.length with hlt | rfl | hgt
    · rw [List.getElem?_append_left hlt] at hget
      exact h.position index field hget
    · rw [List.getElem?_concat_length] at hget
      cases hget
      rfl
    · rw [List.getElem?_eq_none (by simp; omega)] at hget
      cases hget
  · rw [List.map_append]
    refine List.nodup_append'.2 ⟨h.names, List.nodup_singleton _, ?_⟩
    intro name hmem hlast
    obtain ⟨field, hfield, rfl⟩ := List.mem_map.1 hmem
    exact hnew field hfield (List.mem_singleton.1 hlast)

def Resolves (decl : ModelDecl) (type : TypeDecl) (declared : FieldDecl) (field : Field) : Prop :=
  ∃ id fieldType childEntities,
    decl.resolveType type declared = .ok (fieldType, childEntities) ∧
      field = declared.toField id fieldType childEntities

theorem foldlM_addField {declared : List FieldDecl} {fields fields' : List Field}
    (hat : FieldsAt id fields)
    (h : declared.foldlM (decl.addField id type) fields = .ok fields') :
    FieldsAt id fields' ∧ ∃ added, fields' = fields ++ added ∧
      List.Forall₂ (decl.Resolves type) declared added := by
  induction declared generalizing fields with
  | nil =>
    cases h
    exact ⟨hat, [], by simp, .nil⟩
  | cons first rest ih =>
    rw [List.foldlM_cons] at h
    obtain ⟨next, hnext, hrest⟩ := Results.bind_eq_ok_iff.1 h
    obtain ⟨hat', added, rfl, hadded⟩ := ih (fieldsAt_addField hat hnext) hrest
    obtain ⟨-, fieldType, childEntities, hresolve, rfl⟩ := addField_eq_ok_iff.1 hnext
    refine ⟨hat', _ :: added, List.append_assoc _ _ _, .cons ?_ hadded⟩
    exact ⟨_, fieldType, childEntities, hresolve, rfl⟩

theorem fieldsAt_systemFields (id : TypeId) (type : TypeDecl) :
    FieldsAt id (systemFields id type) := by
  cases hkind : type.kind.hasSystemFields with
  | false => exact ⟨by simp [systemFields, hkind], by simp [systemFields, hkind]⟩
  | true =>
    constructor
    · intro index field hget
      simp only [systemFields, hkind, if_true] at hget
      match index, hget with
      | 0, hget | 1, hget | 2, hget =>
        cases hget
        rfl
    · simp only [systemFields, hkind, if_true, List.map_cons, List.map_nil]
      decide

/-- Only entities have system fields. They differ in position, name and scalar alone. -/
theorem eq_of_mem_systemFields {field : Field} (h : field ∈ systemFields id type) :
    type.kind.hasSystemFields = true ∧ ∃ index name scalar,
      name ∈ [Names.idField, Names.createdAtField, Names.updatedAtField] ∧
      field =
        { id := ⟨id, index⟩, name, type := .scalar scalar, list := false, system := true,
          default := none, relation := false, reference := false, childEntities := false,
          search :=
            { indexed := type.kind = .rootEntity && type.searchIndexed, caseSensitive := true } } := by
  cases hkind : type.kind.hasSystemFields with
  | false => simp [systemFields, hkind] at h
  | true =>
    simp only [systemFields, hkind, if_true, List.mem_cons, List.not_mem_nil, or_false] at h
    rcases h with rfl | rfl | rfl <;> exact ⟨rfl, _, _, _, by simp, rfl⟩

theorem mem_systemFields {field : Field} (h : field ∈ systemFields id type) :
    field.system = true ∧ type.kind.hasSystemFields = true ∧
      field.name ∈ [Names.idField, Names.createdAtField, Names.updatedAtField] := by
  obtain ⟨hkind, _, _, _, hname, rfl⟩ := eq_of_mem_systemFields h
  exact ⟨rfl, hkind, hname⟩

theorem type_of_mem_systemFields {field : Field} (h : field ∈ systemFields id type) :
    ∃ name, field.type = .scalar name := by
  obtain ⟨-, _, _, scalar, -, rfl⟩ := eq_of_mem_systemFields h
  exact ⟨scalar, rfl⟩

/-- System fields are single, no links, and not searched by words. -/
theorem flags_of_mem_systemFields {field : Field} (h : field ∈ systemFields id type) :
    field.list = false ∧ field.relation = false ∧ field.reference = false ∧
      field.search.fulltext = false := by
  obtain ⟨-, _, _, _, -, rfl⟩ := eq_of_mem_systemFields h
  exact ⟨rfl, rfl, rfl, rfl⟩

/-- A lookup by name finds a type that is declared under the name. -/
theorem getElem?_of_lookup? {name : String} {kind : TypeKind}
    (h : decl.lookup? name = some (id, kind)) :
    ∃ target, decl.types[id]? = some target ∧ target.name = name ∧ target.kind = kind := by
  simp only [lookup?, Option.bind_eq_bind, Option.bind_eq_some_iff] at h
  obtain ⟨found, hfound, target, htarget, heq⟩ := h
  cases heq
  obtain ⟨hlt, hname, -⟩ := List.findIdx?_eq_some_iff_getElem.1 hfound
  rw [List.getElem?_eq_getElem hlt, Option.some.injEq] at htarget
  subst htarget
  exact ⟨_, List.getElem?_eq_getElem hlt, by simpa using hname, rfl⟩

theorem lt_of_lookup? {name : String} {kind : TypeKind} (h : decl.lookup? name = some (id, kind)) :
    id < decl.types.length := by
  obtain ⟨_, hget, -⟩ := getElem?_of_lookup? h
  exact (List.getElem?_eq_some_iff.1 hget).1

theorem lt_of_resolveType {declared : FieldDecl} {target : TypeId} {childEntities : Bool}
    (h : decl.resolveType type declared = .ok (.object target, childEntities)) :
    target < decl.types.length := by
  simp only [resolveType] at h
  split at h
  · rename_i found kind hlookup
    split_ifs at h
    cases h
    exact lt_of_lookup? hlookup
  · split_ifs at h <;> cases h

theorem exists_systemField {name : String} (hkind : type.kind.hasSystemFields = true)
    (h : name ∈ [Names.idField, Names.createdAtField, Names.updatedAtField]) :
    ∃ field ∈ systemFields id type, field.name = name := by
  simp only [List.mem_cons, List.not_mem_nil, or_false] at h
  rcases h with rfl | rfl | rfl <;> simp [systemFields, hkind]

end ModelDecl

structure ObjectType.Resolved (decl : ModelDecl) (id : TypeId) (declared : TypeDecl)
    (type : ObjectType) : Prop where
  id_eq : type.id = id
  name_eq : type.name = declared.name
  kind_eq : type.kind = declared.kind
  fieldsAt : FieldsAt id type.fields
  fields_eq : ∃ added, type.fields = ModelDecl.systemFields id declared ++ added ∧
    List.Forall₂ (decl.Resolves declared) declared.fields added

theorem ModelDecl.resolved_of_resolveObject {decl : ModelDecl} {id : TypeId} {declared : TypeDecl}
    {type : ObjectType} (h : decl.resolveObject id declared = .ok type) :
    type.Resolved decl id declared := by
  obtain ⟨fields, hfields, hrest⟩ := Results.bind_eq_ok_iff.1 h
  obtain ⟨root, -, htype⟩ := Results.bind_eq_ok_iff.1 hrest
  cases htype
  obtain ⟨hat, hadded⟩ := foldlM_addField (fieldsAt_systemFields id declared) hfields
  exact ⟨rfl, rfl, rfl, hat, hadded⟩

namespace ObjectType.Resolved

variable {decl : ModelDecl} {id : TypeId} {declared : TypeDecl} {type : ObjectType}

theorem eq_of_name (h : type.Resolved decl id declared) {a b : Field} (ha : a ∈ type.fields)
    (hb : b ∈ type.fields) (hname : a.name = b.name) : a = b :=
  List.inj_on_of_nodup_map h.fieldsAt.names ha hb hname

/-- A system field has the name of no other field of its type. -/
theorem name_ne_of_system (h : type.Resolved decl id declared)
    (hkind : type.kind.hasSystemFields = true) {field : Field} (hfield : field ∈ type.fields)
    (hsystem : field.system = false) :
    field.name ∉ [Names.idField, Names.createdAtField, Names.updatedAtField] := by
  intro hname
  rw [h.kind_eq] at hkind
  obtain ⟨added, hfields, -⟩ := h.fields_eq
  obtain ⟨other, hother, heq⟩ : ∃ other ∈ ModelDecl.systemFields id declared,
      other.name = field.name := ModelDecl.exists_systemField hkind hname
  have hmem : other ∈ type.fields := by
    rw [hfields]
    exact List.mem_append_left _ hother
  have hsame : other = field := h.eq_of_name hmem hfield heq
  have htrue : other.system = true := (ModelDecl.mem_systemFields hother).1
  rw [hsame, hsystem] at htrue
  cases htrue

/-- A field is a system field, or there is a declaration that it comes from. -/
theorem mem_systemFields_or (h : type.Resolved decl id declared) {field : Field}
    (hfield : field ∈ type.fields) : field ∈ ModelDecl.systemFields id declared ∨
      ∃ source ∈ declared.fields, decl.Resolves declared source field := by
  obtain ⟨added, hfields, hadded⟩ := h.fields_eq
  rw [hfields] at hfield
  exact (List.mem_append.1 hfield).imp_right (Results.exists_of_mem_right hadded)

theorem system_of_not_mem (h : type.Resolved decl id declared) {field : Field}
    (hfield : field ∈ type.fields) (hother : field ∉ ModelDecl.systemFields id declared) :
    field.system = false := by
  obtain ⟨_, -, _, _, _, -, rfl⟩ := (h.mem_systemFields_or hfield).resolve_left hother
  rfl

/-- Only declared fields hold objects. -/
theorem resolves_of_object (h : type.Resolved decl id declared) {field : Field} {target : TypeId}
    (hfield : field ∈ type.fields) (htarget : field.type = .object target) :
    ∃ source ∈ declared.fields, decl.Resolves declared source field := by
  refine (h.mem_systemFields_or hfield).resolve_left fun hsystem => ?_
  obtain ⟨name, hscalar⟩ := ModelDecl.type_of_mem_systemFields hsystem
  rw [htarget] at hscalar
  cases hscalar

theorem system_of_object (h : type.Resolved decl id declared) {field : Field} {target : TypeId}
    (hfield : field ∈ type.fields) (htarget : field.type = .object target) :
    field.system = false := by
  obtain ⟨_, -, _, _, _, -, rfl⟩ := h.resolves_of_object hfield htarget
  rfl

/-- System fields are single. -/
theorem system_of_list (h : type.Resolved decl id declared) {field : Field}
    (hfield : field ∈ type.fields) (hlist : field.list = true) : field.system = false := by
  refine h.system_of_not_mem hfield fun hsystem => ?_
  rw [(ModelDecl.flags_of_mem_systemFields hsystem).1] at hlist
  cases hlist

/-- System fields are not searched by words. -/
theorem system_of_fulltext (h : type.Resolved decl id declared) {field : Field}
    (hfield : field ∈ type.fields) (hfulltext : field.search.fulltext = true) :
    field.system = false := by
  refine h.system_of_not_mem hfield fun hsystem => ?_
  rw [(ModelDecl.flags_of_mem_systemFields hsystem).2.2.2] at hfulltext
  cases hfulltext

end ObjectType.Resolved

namespace Model

variable {decl : ModelDecl} {model : Model}

theorem types_of_resolve (h : Model.resolve decl = .ok model) :
    List.Forall₂ (fun entry type => decl.resolveObject entry.2 entry.1 = .ok type)
      decl.types.zipIdx model.types := by
  simp only [resolve] at h
  split at h
  · simp [throw, throwThe, MonadExceptOf.throw, bind, Except.bind] at h
  · obtain ⟨types, htypes, hmodel⟩ := Results.bind_eq_ok_iff.1 h
    cases hmodel
    exact Results.mapM_eq_ok_iff.1 htypes

theorem resolved_type (h : Model.resolve decl = .ok model) {id : TypeId} {type : ObjectType}
    (htype : model.type? id = some type) :
    ∃ declared, decl.types[id]? = some declared ∧ type.Resolved decl id declared := by
  obtain ⟨hid, hget⟩ := List.getElem?_eq_some_iff.1 htype
  obtain ⟨hlength, hall⟩ := List.forall₂_iff_get.1 (types_of_resolve h)
  have hzip : id < decl.types.zipIdx.length := hlength ▸ hid
  have hresolve := hall id hzip hid
  have hdeclared : id < decl.types.length := by simpa using hzip
  refine ⟨decl.types[id], List.getElem?_eq_getElem hdeclared, ?_⟩
  have hobject : decl.resolveObject id decl.types[id] = .ok type := by
    simpa [hget] using hresolve
  exact ModelDecl.resolved_of_resolveObject hobject

theorem length_types (h : Model.resolve decl = .ok model) :
    model.types.length = decl.types.length := by
  simpa using (types_of_resolve h).length_eq.symm

/-- The other way round, each declared type is resolved at its position. -/
theorem exists_resolved_type (h : Model.resolve decl = .ok model) {id : TypeId}
    {declared : TypeDecl} (hdeclared : decl.types[id]? = some declared) :
    ∃ type, model.type? id = some type ∧ type.Resolved decl id declared := by
  have hlt : id < model.types.length := by
    rw [length_types h]
    exact (List.getElem?_eq_some_iff.1 hdeclared).1
  have htype : model.type? id = some model.types[id] := List.getElem?_eq_getElem hlt
  obtain ⟨other, hother, hresolved⟩ := resolved_type h htype
  cases hdeclared.symm.trans hother
  exact ⟨_, htype, hresolved⟩

/-- A field is found at the position that its identifier names. -/
theorem field?_of_mem (h : Model.resolve decl = .ok model) {id : TypeId} {type : ObjectType}
    (htype : model.type? id = some type) {field : Field} (hfield : field ∈ type.fields) :
    model.field? field.id = some field := by
  obtain ⟨index, hindex⟩ := List.mem_iff_getElem?.1 hfield
  obtain ⟨_, -, hresolved⟩ := resolved_type h htype
  rw [hresolved.fieldsAt.position index field hindex]
  simp [field?, htype, hindex]

/-- A type of the declaration that a field names has its place in the model. -/
theorem lt_of_resolveType (h : Model.resolve decl = .ok model) {type : TypeDecl}
    {declared : FieldDecl} {target : TypeId} {childEntities : Bool}
    (htype : decl.resolveType type declared = .ok (.object target, childEntities)) :
    target < model.types.length := by
  rw [length_types h]
  exact ModelDecl.lt_of_resolveType htype

/-- A field that holds objects names an object type of the model. -/
theorem target_lt (h : Model.resolve decl = .ok model) {id target : TypeId} {type : ObjectType}
    {field : Field} (htype : model.type? id = some type) (hfield : field ∈ type.fields)
    (htarget : field.type = .object target) : target < model.types.length := by
  obtain ⟨declared, -, hresolved⟩ := resolved_type h htype
  obtain ⟨_, -, _, _, _, hresolve, rfl⟩ := hresolved.resolves_of_object hfield htarget
  cases htarget
  exact lt_of_resolveType h hresolve

end Model

end EntitySchema
