import EntitySchema.Proofs.UpdateInput.InputTypes

/-! # Links to root entities in Update inputs

A root entity is never part of another entity, so a field whose type is a root entity should change
through identifiers or keys of the entities it links to, or not be allowed. A list is treated so
only if it is a relation, and operators offer the root entity itself. -/
namespace EntitySchema

open Sdl

namespace UpdateInput

variable {document : Document} {field : FieldDef} {type target : TypeDef}

structure RootLink (document : Document) (field : FieldDef) (target : TypeDef) : Prop where
  found : document.definition? field.type.innermost = some (.object target)
  root : target.isRootEntity = true
  child : target.isChildEntity = false
  extension : target.isEntityExtension = false

/-- The rules for links, which a list follows like a single value. -/
structure TreatsLink (document : Document) (field : FieldDef) : Prop where
  relation (hrelation : Directive.present field.directives Directive.relation = true) :
    ∀ inputs, synthesize document = .ok inputs → (block document field).map (·.type) =
      if field.type.isList then [.listOf "ID", .listOf "ID"] else [.optional "ID"]
  reference (hrelation : Directive.present field.directives Directive.relation = false)
      (hreference : Directive.present field.directives Directive.reference = true) :
    ∀ inputs, synthesize document = .ok inputs → (block document field).map (·.type) =
      [if field.type.isList then .listOf "String" else .optional "String"]
  embedded (hrelation : Directive.present field.directives Directive.relation = false)
      (hreference : Directive.present field.directives Directive.reference = false) :
    ∀ inputs, synthesize document ≠ .ok inputs

theorem updateInput_ne_string (name : String) : Names.updateInput name ≠ "String" := by
  intro h
  simpa [Names.updateInput] using congrArg (·.toList.head?) h

namespace RootLink

/-- A list that is no relation changes like a part of the entity. -/
theorem types_of_list (hlink : RootLink document field target) (hlist : field.type.isList = true)
    {made : List FieldDef} (h : fieldInputs document field = .ok made) :
    made.map (·.type) =
      if Directive.present field.directives Directive.relation then [.listOf "ID", .listOf "ID"]
      else [.listOf (Names.updateInput target.name)] := by
  rw [types_of_fieldInputs h hlink.found, if_pos hlist, standIns, if_pos hlist, itemStandIns,
    hlink.child, if_neg Bool.false_ne_true]
  split_ifs <;> rfl

/-- A single link is allowed only to what it names by an identifier or by a key. -/
theorem relation_or_reference (hlink : RootLink document field target)
    (hsingle : field.type.isList = false) (hsound : Sound document field) :
    Directive.present field.directives Directive.relation = true ∨
      Directive.present field.directives Directive.reference = true := by
  by_contra hneither
  rw [not_or, Bool.not_eq_true, Bool.not_eq_true] at hneither
  exact hsound _ _ (.embedded hsingle hneither.1 hneither.2 hlink.found hlink.root hlink.child
    hlink.extension)

/-- Operators apply to the root entity itself. -/
theorem types_of_single (hlink : RootLink document field target)
    (hsingle : field.type.isList = false) {made : List FieldDef}
    (h : fieldInputs document field = .ok made) :
    made.map (·.type) =
      .optional (if Directive.present field.directives Directive.relation then "ID"
        else "String") :: (operatorValues field).map fun _ => .optional field.type.innermost := by
  have hallowed := hlink.relation_or_reference hsingle (sound_of_fieldInputs h)
  rw [types_of_fieldInputs h hlink.found, standIns, standIn, hsingle]
  cases hrelation : Directive.present field.directives Directive.relation with
  | true => rfl
  | false =>
    rw [hallowed.resolve_left (by simp [hrelation])]
    rfl

variable (htype : type ∈ document.rootEntities ++ document.childEntities)
  (hfield : field ∈ changeable type)
include htype hfield

theorem treatsLink_list_iff (hlink : RootLink document field target)
    (hlist : field.type.isList = true) :
    TreatsLink document field ↔ ∀ inputs, synthesize document = .ok inputs →
      Directive.present field.directives Directive.relation = true := by
  constructor
  · intro htreats inputs hinputs
    have htypes := hlink.types_of_list hlist (fieldInputs_of_synthesize hinputs htype hfield)
    by_contra hno
    have hrelation := Bool.not_eq_true _ ▸ hno
    rw [if_neg hno] at htypes
    cases hreference : Directive.present field.directives Directive.reference with
    | true =>
      have hstrings := htreats.reference hrelation hreference inputs hinputs
      rw [htypes, if_pos hlist] at hstrings
      exact updateInput_ne_string target.name (by simpa [TypeExpr.listOf] using hstrings)
    | false => exact htreats.embedded hrelation hreference inputs hinputs
  · intro hrule
    constructor
    · intro hrelation inputs hinputs
      rw [hlink.types_of_list hlist (fieldInputs_of_synthesize hinputs htype hfield),
        if_pos hrelation, if_pos hlist]
    · intro hno _ inputs hinputs
      exact absurd (hrule inputs hinputs) (by simp [hno])
    · intro hno _ inputs hinputs
      exact absurd (hrule inputs hinputs) (by simp [hno])

theorem treatsLink_single_iff (hlink : RootLink document field target)
    (hsingle : field.type.isList = false) :
    TreatsLink document field ↔ ∀ inputs, synthesize document = .ok inputs →
      operatorValues field = [] := by
  have hmade : ∀ inputs, synthesize document = .ok inputs →
      fieldInputs document field = .ok (block document field) :=
    fun inputs hinputs => fieldInputs_of_synthesize hinputs htype hfield
  constructor
  · intro htreats inputs hinputs
    have hsound := sound_of_fieldInputs (hmade inputs hinputs)
    -- The rules leave no type behind that of the field itself.
    have hrest : ((block document field).map (·.type)).tail = [] := by
      cases hrelation : Directive.present field.directives Directive.relation with
      | true =>
        rw [htreats.relation hrelation inputs hinputs, hsingle]
        rfl
      | false =>
        have hreference := (hlink.relation_or_reference hsingle hsound).resolve_left
          (by simp [hrelation])
        rw [htreats.reference hrelation hreference inputs hinputs, List.tail_cons]
    rw [hlink.types_of_single hsingle (hmade inputs hinputs), List.tail_cons] at hrest
    exact List.map_eq_nil_iff.1 hrest
  · intro hrule
    constructor
    · intro hrelation inputs hinputs
      rw [hlink.types_of_single hsingle (hmade inputs hinputs), hrule inputs hinputs]
      simp [hsingle, hrelation]
    · intro hrelation hreference inputs hinputs
      rw [hlink.types_of_single hsingle (hmade inputs hinputs), hrule inputs hinputs]
      simp [hsingle, hrelation]
    · intro hrelation hreference inputs hinputs
      have hsound := sound_of_fieldInputs (hmade inputs hinputs)
      simpa [hrelation, hreference] using hlink.relation_or_reference hsingle hsound

end RootLink

/-- The rules hold for a list exactly if it is a relation, and for a single link exactly if no
operator applies to it. -/
theorem treatsLink_iff (htype : type ∈ document.rootEntities ++ document.childEntities)
    (hfield : field ∈ changeable type) (hlink : RootLink document field target) :
    TreatsLink document field ↔ ∀ inputs, synthesize document = .ok inputs →
      if field.type.isList then Directive.present field.directives Directive.relation = true
      else operatorValues field = [] := by
  cases hlist : field.type.isList with
  | true => simpa using hlink.treatsLink_list_iff htype hfield hlist
  | false => simpa using hlink.treatsLink_single_iff htype hfield hlist

/-- A delivery with persons as a relation and a country as a reference. -/
theorem treatsLink_of_persons_and_country :
    let persons : FieldDef :=
      { name := "persons", type := .listOf "Person", directives := [{ name := "relation" }] }
    let country : FieldDef :=
      { name := "country", type := .optional "Country", directives := [{ name := "reference" }] }
    let delivery : TypeDef :=
      { name := "Delivery", directives := [{ name := "rootEntity" }], fields := [persons, country] }
    let document : Document :=
      { definitions :=
        [.object delivery, .object { name := "Person", directives := [{ name := "rootEntity" }] },
          .object { name := "Country", directives := [{ name := "rootEntity" }] }] }
    (∃ inputs, synthesize document = .ok inputs) ∧
      TreatsLink document persons ∧ TreatsLink document country := by
  intro persons country delivery document
  have hdelivery : delivery ∈ document.rootEntities ++ document.childEntities := List.mem_cons_self
  have hpersons : RootLink document persons
      { name := "Person", directives := [{ name := "rootEntity" }] } := ⟨rfl, rfl, rfl, rfl⟩
  have hcountry : RootLink document country
      { name := "Country", directives := [{ name := "rootEntity" }] } := ⟨rfl, rfl, rfl, rfl⟩
  refine ⟨⟨_, rfl⟩, ?_, ?_⟩
  · exact (treatsLink_iff hdelivery List.mem_cons_self hpersons).2 fun _ _ => rfl
  · exact (treatsLink_iff hdelivery (List.mem_cons_of_mem _ List.mem_cons_self) hcountry).2
      fun _ _ => rfl

/-- A list of references is offered as a list of inputs for the countries themselves. -/
theorem referenced_countries_are_updated :
    let countries : FieldDef :=
      { name := "countries", type := .list (.named "Country" false) false
        directives := [{ name := "reference" }] }
    let country : TypeDef :=
      { name := "Country", directives := [{ name := "rootEntity" }]
        fields := [{ name := "isoCode", type := .optional "String" }] }
    let delivery : TypeDef :=
      { name := "Delivery", directives := [{ name := "rootEntity" }], fields := [countries] }
    let document : Document := { definitions := [.object delivery, .object country] }
    delivery ∈ document.rootEntities ∧ countries ∈ changeable delivery ∧
      RootLink document countries country ∧ ¬ TreatsLink document countries := by
  intro countries country delivery document
  refine ⟨List.mem_cons_self, List.mem_cons_self, ⟨rfl, rfl, rfl, rfl⟩, fun htreats => ?_⟩
  have htypes := htreats.reference rfl rfl _ rfl
  exact absurd htypes (by decide)

end UpdateInput

end EntitySchema
