import EntitySchema.CreateInput.Shape
import EntitySchema.Proofs.Model.Resolved

/-! # The Create inputs of a resolved model

An input has a field for each field of its object type that is not a system field, so its fields
have distinct names, and none of them is named like a property that the server computes. -/
namespace EntitySchema

variable {decl : ModelDecl} {model : Model}

theorem Model.createInput?_eq_some_iff {id : TypeId} {input : CreateInput} :
    model.createInput? id = some input ↔
      ∃ type, model.type? id = some type ∧ CreateInput.ofType model type = input :=
  Option.map_eq_some_iff

namespace Field

def Embeds (field : Field) (target : TypeId) : Prop :=
  field.type = .object target ∧ field.relation = false ∧ field.reference = false

/-- The values of the field are keys of entities, which the document does not hold. -/
def Relates (field : Field) : Prop :=
  (∃ target, field.type = .object target) ∧ field.relation = true

/-- The values of the field are scalars, members of an enum or keys that the document holds. -/
def Plain (field : Field) : Prop :=
  (∃ name, field.type = .scalar name ∨ field.type = .enumeration name) ∨
    (∃ target, field.type = .object target) ∧ field.relation = false ∧ field.reference = true

instance : DecidablePred Relates := fun field =>
  decidable_of_iff (field.type.isLeaf = false ∧ field.relation = true) <| by
    simp only [Relates]
    cases field.type <;> simp [FieldType.isLeaf]

variable {field : Field} {target : TypeId}

theorem Plain.not_relates (h : field.Plain) : ¬ field.Relates := by
  rintro ⟨⟨target, hobject⟩, hrelation⟩
  rcases h with ⟨name, hscalar | henum⟩ | ⟨-, hnone, -⟩
  · rw [hobject] at hscalar
    cases hscalar
  · rw [hobject] at henum
    cases henum
  · rw [hrelation] at hnone
    cases hnone

theorem Embeds.not_plain (h : field.Embeds target) : ¬ field.Plain := by
  rintro (⟨name, hscalar | henum⟩ | ⟨-, -, hreference⟩)
  · rw [h.1] at hscalar
    cases hscalar
  · rw [h.1] at henum
    cases henum
  · rw [h.2.2] at hreference
    cases hreference

theorem Embeds.not_relates (h : field.Embeds target) : ¬ field.Relates := by
  rintro ⟨-, hrelation⟩
  rw [h.2.1] at hrelation
  cases hrelation

theorem Embeds.unique {other : TypeId} (h : field.Embeds target)
    (hother : field.Embeds other) : other = target := by
  have hsame := hother.1.symm.trans h.1
  cases hsame
  rfl

end Field

namespace CreateInput

variable {type : ObjectType}

theorem kind_cases (model : Model) (field : Field) :
    (field.Plain ∧ (inputField model field).kind = if field.list then .basicList else .basic) ∨
    (field.Relates ∧ (inputField model field).kind = .relation field.list) ∨
    ∃ target name, field.Embeds target ∧ (inputField model field).kind =
      if field.list then .objectList ⟨name, target⟩ else .object ⟨name, target⟩ := by
  simp only [inputField, shape, leaf, relation, embedded]
  cases htype : field.type with
  | scalar name | enumeration name =>
    left
    refine ⟨.inl ⟨name, by simp [htype]⟩, ?_⟩
    split_ifs <;> rfl
  | object target =>
    by_cases hrelation : field.relation = true
    · right; left
      exact ⟨⟨⟨target, htype⟩, hrelation⟩, by simp [hrelation]⟩
    · have hnone : field.relation = false := by simpa using hrelation
      by_cases hreference : field.reference = true
      · left
        refine ⟨.inr ⟨⟨target, htype⟩, hnone, hreference⟩, ?_⟩
        simp only [hnone, hreference, if_true, Bool.false_eq_true, if_false]
        split_ifs <;> rfl
      · right; right
        have hembeds : field.Embeds target := ⟨htype, hnone, by simpa using hreference⟩
        refine ⟨target, Names.createInput (((model.type? target).map (·.name)).getD ""), hembeds, ?_⟩
        simp only [hnone, hreference, Bool.false_eq_true, if_false]
        split_ifs <;> rfl

theorem embeds_of_kind {field : Field} {nested : NestedInput}
    (h : (inputField model field).kind = .object nested ∨
      (inputField model field).kind = .objectList nested) : field.Embeds nested.target := by
  rcases kind_cases model field with ⟨-, hkind⟩ | ⟨-, hkind⟩ | ⟨target, name, hembeds, hkind⟩
  · rw [hkind] at h
    split_ifs at h <;> simp at h
  · rw [hkind] at h
    simp at h
  · have htarget : target = nested.target := by
      rw [hkind] at h
      split_ifs at h <;> simp at h <;> rw [← h]
    exact htarget ▸ hembeds

theorem mem_fields_ofType {field : InputField} :
    field ∈ (ofType model type).fields ↔
      ∃ source ∈ type.fields, source.system = false ∧ inputField model source = field := by
  simp only [ofType, List.mem_map, List.mem_filter, Bool.not_eq_true', and_assoc]

theorem names_ofType :
    (ofType model type).fields.map (·.name) =
      (type.fields.filter (!·.system)).map (·.name) := by
  rw [ofType, List.map_map]
  rfl

theorem nodup_names_ofType {id : TypeId} (h : FieldsAt id type.fields) :
    ((ofType model type).fields.map (·.name)).Nodup := by
  rw [names_ofType]
  exact h.names.sublist (List.filter_sublist.map _)

theorem mem_nested {input : CreateInput} {nested : NestedInput} :
    nested ∈ input.nested ↔
      ∃ field ∈ input.fields, field.kind = .object nested ∨ field.kind = .objectList nested := by
  simp only [CreateInput.nested, List.mem_filterMap]
  refine exists_congr fun field => and_congr_right fun _ => ?_
  cases field.kind <;> simp

/-- Only entities get properties from the server. -/
theorem serverProperties_eq_none_iff {kind : TypeKind} :
    serverProperties kind = .none ↔ kind.hasSystemFields = false := by
  cases kind <;> decide

end CreateInput

theorem Model.nodup_names_of_createInput? (hresolve : Model.resolve decl = .ok model) {id : TypeId}
    {input : CreateInput} (hinput : model.createInput? id = some input) :
    (input.fields.map (·.name)).Nodup := by
  obtain ⟨type, htype, rfl⟩ := Model.createInput?_eq_some_iff.1 hinput
  obtain ⟨_, -, hresolved⟩ := Model.resolved_type hresolve htype
  exact CreateInput.nodup_names_ofType hresolved.fieldsAt

def Model.Embeds (model : Model) (outer inner : TypeId) : Prop :=
  ∃ input, model.createInput? outer = some input ∧ ∃ nested ∈ input.nested, nested.target = inner

end EntitySchema
