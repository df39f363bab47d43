import EntitySchema.Proofs.CreateInput.Deeper
import EntitySchema.Proofs.CreateInput.Inputs
import EntitySchema.Proofs.Json.Reading
import Mathlib.Algebra.GroupWithZero.Nat
import Mathlib.Algebra.Order.BigOperators.Group.List
import Mathlib.Algebra.Order.Group.Nat
import Mathlib.Logic.Relation

/-! # When preparation comes to an end

Preparing an object comes to preparing those that stand in it, or in the defaults of what it leaves
out. Preparation has no end exactly if it comes to an object of a default whose preparation comes
back to that object. The bound on the depth cuts off nothing else. -/
namespace EntitySchema

namespace Prepare

variable {model : Model} {creation : Creation} {prepare : Nested}

/-! ### What preparing an object comes to -/

abbrev Task := TypeId × Json.Object

inductive ValueLeads (model : Model) (creation : Creation) (field : InputField) :
    Json → Task → Prop
  | object {nested : NestedInput} {members : Json.Object} (hkind : field.kind = .object nested) :
      ValueLeads model creation field (.object members) (nested.target, members)
  | item {nested : NestedInput} {before after prepared : List Json} {members : Json.Object}
      {n : Nat} {path : List PathStep} (hkind : field.kind = .objectList nested)
      (hbefore : items (within model creation n) field nested.target path 0 before =
        .ok prepared) :
      ValueLeads model creation field (.array (before ++ .object members :: after))
        (nested.target, members)

/-- Preparing an object comes to another one in the value of a field, supplied or by default, that
stands behind fields that can be prepared. -/
inductive Leads (model : Model) (creation : Creation) : Task → Task → Prop
  | mk {id : TypeId} {payload own : Json.Object} {input : CreateInput}
      {before after : List InputField} {field : InputField} {value : Json} {inner : Task} {n : Nat}
      {path : List PathStep} (hinput : model.createInput? id = some input)
      (hfields : input.fields = before ++ field :: after)
      (hbefore : ownProperties (within model creation n) path payload before = .ok own)
      (hvalue : (payload.get? field.name).or field.default = some value)
      (hinner : ValueLeads model creation field value inner) :
      Leads model creation (id, payload) inner

def DefaultLeads (model : Model) (creation : Creation) (field : InputField) (task : Task) : Prop :=
  ∃ value, field.default = some value ∧ ValueLeads model creation field value task

/-- No bound on the depth is great enough for an object. -/
def Endless (model : Model) (creation : Creation) (task : Task) : Prop :=
  ∀ n path, within model creation n task.1 path task.2 = .error .endless

/-! ### A cut off preparation has come to a cut off object -/

theorem items_endless {field : InputField} {target : TypeId} {path : List PathStep} {start : Nat}
    {values : List Json} (h : items prepare field target path start values = .error .endless) :
    ∃ before members after prepared path',
      values = before ++ .object members :: after ∧
      items prepare field target path start before = .ok prepared ∧
      prepare target path' members = .error .endless := by
  induction values generalizing start with
  | nil => cases h
  | cons first rest ih =>
    cases first with
    | object members =>
      rw [items] at h
      rcases Results.bind_eq_error_iff.1 h with hfirst | ⟨object, hobject, hnext⟩
      · exact ⟨[], members, rest, [], _, rfl, rfl, hfirst⟩
      · rcases Results.bind_eq_error_iff.1 hnext with hothers | ⟨_, _, hdone⟩
        · obtain ⟨before, inner, after, prepared, path', rfl, hbefore, hinner⟩ := ih hothers
          refine ⟨.object members :: before, inner, after, .object object :: prepared, path', rfl,
            ?_, hinner⟩
          rw [items]
          refine Results.bind_eq_ok_iff.2 ⟨object, hobject, ?_⟩
          exact Results.bind_eq_ok_iff.2 ⟨prepared, hbefore, rfl⟩
        · cases hdone
    | _ => simp [items, mismatch] at h

theorem property_endless {n : Nat} {path : List PathStep} {field : InputField} {value : Json}
    (h : property (within model creation n) path field value = .error .endless) :
    ∃ inner path', ValueLeads model creation field value inner ∧
      within model creation n inner.1 path' inner.2 = .error .endless := by
  cases hkind : field.kind with
  | basic | relation => simp [property, hkind] at h
  | basicList => cases value <;> simp [property, hkind] at h
  | object nested =>
    cases value with
    | object members =>
      rw [property_object hkind, Results.map_eq_error_iff] at h
      exact ⟨(nested.target, members), _, .object hkind, h⟩
    | _ => simp [property, hkind, mismatch] at h
  | objectList nested =>
    cases value with
    | array values =>
      rw [property_objectList hkind, Results.map_eq_error_iff] at h
      obtain ⟨before, members, after, prepared, path', rfl, hbefore, hinner⟩ := items_endless h
      exact ⟨(nested.target, members), path', .item hkind hbefore, hinner⟩
    | _ => simp [property, hkind, mismatch] at h

theorem ownProperties_endless {path : List PathStep} {payload : Json.Object}
    {fields : List InputField}
    (h : ownProperties prepare path payload fields = .error .endless) :
    ∃ before field after own value, fields = before ++ field :: after ∧
      ownProperties prepare path payload before = .ok own ∧
      (payload.get? field.name).or field.default = some value ∧
      property prepare path field value = .error .endless := by
  induction fields with
  | nil => cases h
  | cons first rest ih =>
    rw [ownProperties] at h
    cases hfirst : (payload.get? first.name).or first.default with
    | none =>
      rw [hfirst] at h
      obtain ⟨before, field, after, own, value, rfl, hbefore, hvalue, hproperty⟩ := ih h
      refine ⟨first :: before, field, after, own, value, rfl, ?_, hvalue, hproperty⟩
      rw [ownProperties, hfirst]
      exact hbefore
    | some found =>
      rw [hfirst] at h
      rcases Results.bind_eq_error_iff.1 h with hproperty | ⟨prepared, hprepared, hnext⟩
      · exact ⟨[], first, rest, [], found, rfl, rfl, hfirst, hproperty⟩
      · rcases Results.bind_eq_error_iff.1 hnext with hothers | ⟨_, _, hdone⟩
        · obtain ⟨before, field, after, own, value, rfl, hbefore, hvalue, hproperty⟩ := ih hothers
          refine ⟨first :: before, field, after,
            (prepared.map fun p => (first.name, p)).toList ++ own, value, rfl, ?_, hvalue,
            hproperty⟩
          rw [ownProperties, hfirst]
          refine Results.bind_eq_ok_iff.2 ⟨prepared, hprepared, ?_⟩
          exact Results.bind_eq_ok_iff.2 ⟨own, hbefore, rfl⟩
        · cases hdone

theorem properties_ne_endless {path : List PathStep} {server : ServerProperties} :
    (creation.properties path server).mapError PrepareError.input ≠ .error .endless := by
  cases creation.properties path server <;> simp [Except.mapError]

/-- The value in which the preparation is cut off, and the object there. -/
theorem within_endless {n : Nat} {id : TypeId} {path : List PathStep} {payload : Json.Object}
    (h : within model creation (n + 1) id path payload = .error .endless) :
    ∃ input before field after own value inner path', model.createInput? id = some input ∧
      input.fields = before ++ field :: after ∧
      ownProperties (within model creation n) path payload before = .ok own ∧
      (payload.get? field.name).or field.default = some value ∧
      ValueLeads model creation field value inner ∧
      within model creation n inner.1 path' inner.2 = .error .endless := by
  rw [within] at h
  cases hinput : model.createInput? id with
  | none => simp [hinput] at h
  | some input =>
    simp only [hinput] at h
    rcases Results.bind_eq_error_iff.1 h with hown | ⟨own, -, hnext⟩
    · obtain ⟨before, field, after, own, value, hfields, hbefore, hvalue, hproperty⟩ :=
        ownProperties_endless hown
      obtain ⟨inner, path', hleads, hinner⟩ := property_endless hproperty
      exact ⟨input, before, field, after, own, value, inner, path', rfl, hfields, hbefore, hvalue,
        hleads, hinner⟩
    · rcases Results.bind_eq_error_iff.1 hnext with hserver | ⟨_, _, hdone⟩
      · exact absurd hserver properties_ne_endless
      · cases hdone

/-! ### An object whose preparation ends comes only to objects whose preparation ends -/

theorem items_append (field : InputField) (target : TypeId) (path : List PathStep) (start : Nat)
    (before after : List Json) :
    items prepare field target path start (before ++ after) = do
      let first ← items prepare field target path start before
      let others ← items prepare field target path (start + before.length) after
      return first ++ others := by
  induction before generalizing start with
  | nil => exact (bind_pure (items prepare field target path start after)).symm
  | cons value rest ih =>
    cases value with
    | object members =>
      rw [List.cons_append, items, items, ih]
      have hstart : start + 1 + rest.length = start + (rest.length + 1) := by omega
      simp only [bind_assoc, pure_bind, List.cons_append, List.length_cons, hstart]
    | _ => rfl

theorem ownProperties_append (path : List PathStep) (payload : Json.Object)
    (before after : List InputField) :
    ownProperties prepare path payload (before ++ after) = do
      let first ← ownProperties prepare path payload before
      let others ← ownProperties prepare path payload after
      return first ++ others := by
  induction before with
  | nil => exact (bind_pure (ownProperties prepare path payload after)).symm
  | cons field rest ih =>
    rw [List.cons_append, ownProperties, ownProperties, ih]
    cases (payload.get? field.name).or field.default with
    | none => rfl
    | some value => simp only [bind_assoc, pure_bind, List.append_assoc]

theorem ends_of_valueLeads {n : Nat} {path : List PathStep} {field : InputField} {value : Json}
    {inner : Task} (h : ValueLeads model creation field value inner)
    (hends : property (within model creation n) path field value ≠ .error .endless) :
    ∃ path', within model creation n inner.1 path' inner.2 ≠ .error .endless := by
  cases h with
  | object hkind =>
    rw [property_object hkind] at hends
    exact ⟨_, fun hcut => hends (Results.map_eq_error_iff.2 hcut)⟩
  | @item nested before after _ members _ _ hkind hbefore =>
    rw [property_objectList hkind, items_append] at hends
    have hfirst : items (within model creation n) field nested.target (.field field.name :: path)
        0 before ≠ .error .endless := by
      intro hcut
      exact hends (Results.map_eq_error_iff.2 (Results.bind_eq_error_iff.2 (.inl hcut)))
    obtain ⟨prepared, hprepared⟩ := exists_ok_of_ends
      (fun prepare path => items prepare field nested.target path 0 before)
      (fun _ _ hdeep path path' => items_refines hdeep field nested.target path path' 0 0 before)
      hbefore hfirst
    refine ⟨.item (0 + before.length) :: .field field.name :: path, fun hcut => hends ?_⟩
    refine Results.map_eq_error_iff.2 (Results.bind_eq_error_iff.2 (.inr ⟨prepared, hprepared, ?_⟩))
    refine Results.bind_eq_error_iff.2 (.inl ?_)
    rw [items]
    exact Results.bind_eq_error_iff.2 (.inl hcut)

theorem ends_of_leads {outer inner : Task} (h : Leads model creation outer inner) {n : Nat}
    {path : List PathStep} (hends : within model creation n outer.1 path outer.2 ≠ .error .endless) :
    ∃ m path', m < n ∧ within model creation m inner.1 path' inner.2 ≠ .error .endless := by
  cases n with
  | zero => exact absurd rfl hends
  | succ n =>
    obtain @⟨id, payload, _, input, before, after, field, value, _, _, _, hinput, hfields, hbefore,
      hvalue, hinner⟩ := h
    have hown : ownProperties (within model creation n) path payload input.fields ≠
        .error .endless := by
      intro hcut
      apply hends
      rw [within]
      simp only [hinput]
      exact Results.bind_eq_error_iff.2 (.inl hcut)
    rw [hfields, ownProperties_append] at hown
    have hfirst : ownProperties (within model creation n) path payload before ≠
        .error .endless := fun hcut => hown (Results.bind_eq_error_iff.2 (.inl hcut))
    obtain ⟨own, hprepared⟩ := exists_ok_of_ends
      (fun prepare path => ownProperties prepare path payload before)
      (fun _ _ hdeep path path' => ownProperties_refines hdeep path path' payload before)
      hbefore hfirst
    have hproperty : property (within model creation n) path field value ≠ .error .endless := by
      intro hcut
      apply hown
      refine Results.bind_eq_error_iff.2 (.inr ⟨own, hprepared, ?_⟩)
      refine Results.bind_eq_error_iff.2 (.inl ?_)
      rw [ownProperties, hvalue]
      exact Results.bind_eq_error_iff.2 (.inl hcut)
    obtain ⟨path', hdone⟩ := ends_of_valueLeads hinner hproperty
    exact ⟨n, path', Nat.lt_succ_self n, hdone⟩

theorem ends_of_transGen {outer inner : Task}
    (h : Relation.TransGen (Leads model creation) outer inner) {n : Nat} {path : List PathStep}
    (hends : within model creation n outer.1 path outer.2 ≠ .error .endless) :
    ∃ m path', m < n ∧ within model creation m inner.1 path' inner.2 ≠ .error .endless := by
  induction h with
  | single hstep => exact ends_of_leads hstep hends
  | tail _ hstep ih =>
    obtain ⟨m, path', hm, hmiddle⟩ := ih
    obtain ⟨k, path'', hk, hinner⟩ := ends_of_leads hstep hmiddle
    exact ⟨k, path'', hk.trans hm, hinner⟩

/-- An object whose preparation comes back to it would need a lesser bound than its least one. -/
theorem endless_of_cycle {task : Task}
    (h : Relation.TransGen (Leads model creation) task task) : Endless model creation task := by
  intro n
  induction n using Nat.strong_induction_on with
  | _ n ih =>
    intro path
    by_contra hends
    obtain ⟨m, path', hm, hinner⟩ := ends_of_transGen h hends
    exact hinner (ih m hm path')

theorem Endless.of_leads {outer inner : Task} (hinner : Endless model creation inner)
    (h : Relation.ReflTransGen (Leads model creation) outer inner) :
    Endless model creation outer := by
  induction h using Relation.ReflTransGen.head_induction_on with
  | refl => exact hinner
  | head hstep _ ih =>
    intro n path
    by_contra hends
    obtain ⟨m, path', -, hmiddle⟩ := ends_of_leads hstep hends
    exact hmiddle (ih m path')

/-! ### The bound is great enough -/

def inputFields (model : Model) : List InputField :=
  model.types.flatMap fun type => (CreateInput.ofType model type).fields

theorem mem_inputFields {id : TypeId} {input : CreateInput} {field : InputField}
    (hinput : model.createInput? id = some input) (hfield : field ∈ input.fields) :
    field ∈ inputFields model := by
  obtain ⟨type, htype, rfl⟩ := Model.createInput?_eq_some_iff.1 hinput
  exact List.mem_flatMap.2 ⟨type, List.mem_of_getElem? htype, hfield⟩

/-- How deep the defaults are together that are not those of visited fields. -/
def remaining (model : Model) (visited : List InputField) : Nat :=
  ((inputFields model).map fun field =>
    if field ∈ visited then 0 else (field.default.map Json.depth).getD 0).sum

theorem remaining_visit {visited : List InputField} {field : InputField} {value : Json}
    (hfield : field ∈ inputFields model) (hnew : field ∉ visited)
    (hdefault : field.default = some value) :
    remaining model (field :: visited) + value.depth ≤ remaining model visited := by
  obtain ⟨before, after, hsplit⟩ := List.append_of_mem hfield
  have hless : ∀ fields : List InputField,
      (fields.map fun other =>
        if other ∈ field :: visited then 0 else (other.default.map Json.depth).getD 0).sum ≤
      (fields.map fun other =>
        if other ∈ visited then 0 else (other.default.map Json.depth).getD 0).sum := by
    intro fields
    refine List.sum_le_sum fun other _ => ?_
    by_cases hother : other ∈ visited
    · simp [hother]
    · by_cases hsame : other = field
      · simp [hsame]
      · simp [hother, hsame]
  have hbefore := hless before
  have hafter := hless after
  simp only [remaining, hsplit, List.map_append, List.map_cons, List.sum_append, List.sum_cons,
    List.mem_cons_self, if_true, if_neg hnew, hdefault, Option.map_some, Option.getD_some]
  omega

theorem depth_le_of_valueLeads {field : InputField} {value : Json} {inner : Task}
    (h : ValueLeads model creation field value inner) :
    (Json.object inner.2).depth ≤ value.depth := by
  cases h with
  | object => exact Nat.le_refl _
  | item =>
    rw [Json.depth]
    exact Nat.le_succ_of_le (Json.depth_le_depthList (by simp))

/-- A preparation that is cut off where nothing but a repeated default can have gone so deep has
come to a default whose preparation comes back to it. The induction is on the bound; each step takes
from the payload at hand, or visits a new default. -/
theorem exists_cycle {n : Nat} {visited : List InputField} {task : Task} {path : List PathStep}
    (hcut : within model creation n task.1 path task.2 = .error .endless)
    (hdepth : (Json.object task.2).depth + remaining model visited ≤ n)
    (hvisited : ∀ field ∈ visited, ∃ start, DefaultLeads model creation field start ∧
      Relation.ReflTransGen (Leads model creation) start task) :
    ∃ start, (∃ field ∈ inputFields model, DefaultLeads model creation field start) ∧
      Relation.ReflTransGen (Leads model creation) task start ∧
      Relation.TransGen (Leads model creation) start start := by
  induction n generalizing visited task path with
  | zero =>
    rw [Json.depth] at hdepth
    omega
  | succ n ih =>
    obtain ⟨id, payload⟩ := task
    obtain ⟨input, before, field, after, own, value, inner, path', hinput, hfields, hbefore,
      hvalue, hinner, hdeeper⟩ := within_endless hcut
    have hfield : field ∈ inputFields model := mem_inputFields hinput (by simp [hfields])
    have hleads : Leads model creation (id, payload) inner :=
      .mk hinput hfields hbefore hvalue hinner
    have hinnerDepth := depth_le_of_valueLeads hinner
    simp only [Json.depth] at hdepth
    have hreached : ∀ other ∈ visited, ∃ start, DefaultLeads model creation other start ∧
        Relation.ReflTransGen (Leads model creation) start inner := by
      intro other hother
      obtain ⟨start, hdefault, hreach⟩ := hvisited other hother
      exact ⟨start, hdefault, hreach.tail hleads⟩
    cases hget : payload.get? field.name with
    | some given =>
      rw [hget, Option.some_or, Option.some.injEq] at hvalue
      have hgiven := Json.depth_le_depthMembers (Entries.get?_mem hget)
      rw [hvalue] at hgiven
      obtain ⟨start, hstart, hreach, hcycle⟩ := ih hdeeper (by omega) hreached
      exact ⟨start, hstart, hreach.head hleads, hcycle⟩
    | none =>
      have hdefault : field.default = some value := by rwa [hget, Option.none_or] at hvalue
      by_cases hseen : field ∈ visited
      · obtain ⟨start, hentered, hreach⟩ := hvisited field hseen
        obtain ⟨value', hsame, hstart⟩ := hentered
        rw [hdefault, Option.some.injEq] at hsame
        subst hsame
        have hback : Leads model creation (id, payload) start :=
          .mk hinput hfields hbefore hvalue hstart
        exact ⟨start, ⟨field, hfield, value, hdefault, hstart⟩, .single hback,
          .tail' hreach hback⟩
      · have hless := remaining_visit hfield hseen hdefault
        have hentered : ∀ other ∈ field :: visited, ∃ start,
            DefaultLeads model creation other start ∧
            Relation.ReflTransGen (Leads model creation) start inner := by
          intro other hother
          rcases List.mem_cons.1 hother with rfl | hold
          · exact ⟨inner, ⟨value, hdefault, hinner⟩, .refl⟩
          · exact hreached other hold
        obtain ⟨start, hstart, hreach, hcycle⟩ := ih hdeeper (by omega) hentered
        exact ⟨start, hstart, hreach.head hleads, hcycle⟩

theorem sum_depths_le (model : Model) (fields : List Field) :
    (((fields.filter (!·.system)).map (CreateInput.inputField model)).map fun field =>
      (field.default.map Json.depth).getD 0).sum ≤
    ((fields.filterMap (·.default)).map Json.depth).sum := by
  induction fields with
  | nil => exact Nat.le_refl _
  | cons field rest ih =>
    have hsame : (CreateInput.inputField model field).default = field.default := rfl
    rw [List.map_map] at ih ⊢
    cases hsystem : field.system <;> cases hdefault : field.default <;>
      simp [hsystem, hdefault, hsame] <;> omega

theorem depth_add_remaining_le_bound (model : Model) (payload : Json.Object) :
    (Json.object payload).depth + remaining model [] ≤ bound model payload := by
  have hfold : ∀ (values : List Json) (start : Nat),
      values.foldl (fun sum value => sum + value.depth) start =
        start + (values.map Json.depth).sum := by
    intro values
    induction values with
    | nil => simp
    | cons value rest ih =>
      intro start
      rw [List.foldl_cons, ih, List.map_cons, List.sum_cons, Nat.add_assoc]
  have hsum : ∀ types : List ObjectType,
      ((types.flatMap fun type => (CreateInput.ofType model type).fields).map fun field =>
        (field.default.map Json.depth).getD 0).sum ≤
      ((types.flatMap fun type => type.fields.filterMap (·.default)).map Json.depth).sum := by
    intro types
    induction types with
    | nil => exact Nat.le_refl _
    | cons type rest ih =>
      have hfirst := sum_depths_le model type.fields
      simp only [List.flatMap_cons, List.map_append, List.sum_append]
      exact Nat.add_le_add hfirst ih
  have hdefaults := hsum model.types
  simp only [remaining, inputFields, List.not_mem_nil, if_false, bound, hfold]
  omega

end Prepare

/-! ### The end of a preparation -/

namespace Model

open Prepare

variable {model : Model} {creation : Creation} {id : TypeId} {payload : Json.Object}

theorem exists_cycle_of_endless (h : model.prepare creation id payload = .error .endless) :
    ∃ start, (∃ field ∈ inputFields model, DefaultLeads model creation field start) ∧
      Relation.ReflTransGen (Leads model creation) (id, payload) start ∧
      Relation.TransGen (Leads model creation) start start := by
  have hunvisited : ∀ field ∈ ([] : List InputField), ∃ start,
      DefaultLeads model creation field start ∧
      Relation.ReflTransGen (Leads model creation) start (id, payload) := by
    intro field hfield
    cases hfield
  have hdepth := depth_add_remaining_le_bound model payload
  exact exists_cycle h hdepth hunvisited

/-- What the bound of preparation cuts off, no bound is great enough for. -/
theorem prepare_eq_endless_iff :
    model.prepare creation id payload = .error .endless ↔
      Endless model creation (id, payload) := by
  constructor
  · intro h
    obtain ⟨start, -, hreach, hcycle⟩ := exists_cycle_of_endless h
    exact (endless_of_cycle hcycle).of_leads hreach
  · intro h
    exact h _ []

/-- Preparing a payload comes to an end, within its bound as within any, exactly if it comes to no
object of a default whose preparation comes back to that object. -/
theorem prepare_ends_iff (model : Model) (creation : Creation) (id : TypeId)
    (payload : Json.Object) :
    (model.prepare creation id payload ≠ .error .endless ↔
      ∃ n, within model creation n id [] payload ≠ .error .endless) ∧
    (model.prepare creation id payload ≠ .error .endless ↔
      ∀ field ∈ inputFields model, ∀ start, DefaultLeads model creation field start →
        Relation.ReflTransGen (Leads model creation) (id, payload) start →
        ¬ Relation.TransGen (Leads model creation) start start) := by
  constructor
  · constructor
    · intro hends
      exact ⟨_, hends⟩
    · rintro ⟨n, hends⟩ hcut
      exact hends (prepare_eq_endless_iff.1 hcut n [])
  · constructor
    · intro hends field _ start _ hreach hcycle
      have hendless := (endless_of_cycle hcycle).of_leads hreach
      exact hends (prepare_eq_endless_iff.2 hendless)
    · intro hnone hcut
      obtain ⟨start, ⟨field, hfield, hdefault⟩, hreach, hcycle⟩ := exists_cycle_of_endless hcut
      exact hnone field hfield start hdefault hreach hcycle

/-- A value object whose only field holds such an object again, by default an empty one. -/
theorem empty_node_demands_a_node :
    let decl : ModelDecl :=
      { types :=
        [{ name := "Node", kind := .valueObject,
           fields := [{ name := "child", typeName := "Node", default := some (.object []) }] }] }
    ∃ model, Model.resolve decl = .ok model ∧ ∀ creation : Creation,
      model.prepare creation 0 [] = .error .endless ∧
        ∀ n, within model creation n 0 [] [] = .error .endless := by
  intro decl
  obtain ⟨model, hresolve, input, hinput, field, hfields, nested, hkind, htarget, hdefault⟩ :
      ∃ model, Model.resolve decl = .ok model ∧
        ∃ input, model.createInput? 0 = some input ∧
        ∃ field, input.fields = [] ++ field :: [] ∧
        ∃ nested, field.kind = .object nested ∧ nested.target = 0 ∧
          field.default = some (.object []) :=
    ⟨_, rfl, _, rfl, _, rfl, _, rfl, rfl, rfl⟩
  refine ⟨model, hresolve, ?_⟩
  intro creation
  have hvalue : (Entries.get? [] field.name).or field.default = some (.object []) := hdefault
  have hinner : ValueLeads model creation field (.object []) (0, []) := htarget ▸ .object hkind
  have hbefore : ownProperties (within model creation 0) [] [] [] = .ok [] := rfl
  have hback : Leads model creation (0, []) (0, []) :=
    .mk hinput hfields hbefore hvalue hinner
  have hendless : Endless model creation (0, []) := endless_of_cycle (.single hback)
  exact ⟨prepare_eq_endless_iff.2 hendless, fun n => hendless n []⟩

/-- A bound that suffices gives the result of every one that does. -/
theorem prepare_eq_of_within {n : Nat}
    (hends : within model creation n id [] payload ≠ .error .endless) :
    model.prepare creation id payload = within model creation n id [] payload := by
  have hprepare : model.prepare creation id payload ≠ .error .endless := by
    intro hcut
    exact hends (prepare_eq_endless_iff.1 hcut n [])
  calc model.prepare creation id payload
      = within model creation (max n (bound model payload)) id [] payload :=
        (within_eq_of_le (Nat.le_max_right _ _) hprepare).symm
    _ = within model creation n id [] payload := within_eq_of_le (Nat.le_max_left _ _) hends

theorem prepare_of_within {n : Nat} {built : Json.Object}
    (h : within model creation n id [] payload = .ok built) :
    model.prepare creation id payload = .ok built := by
  have hends : within model creation n id [] payload ≠ .error .endless := by
    intro hcut
    rw [h] at hcut
    cases hcut
  exact (prepare_eq_of_within hends).trans h

theorem embeds_of_leads {outer inner : Task} (h : Leads model creation outer inner) :
    model.Embeds outer.1 inner.1 := by
  obtain @⟨_, _, _, input, before, after, field, _, _, _, _, hinput, hfields, _, _, hinner⟩ := h
  have hfield : field ∈ input.fields := by simp [hfields]
  cases hinner with
  | object hkind =>
    exact ⟨input, hinput, _, CreateInput.mem_nested.2 ⟨field, hfield, .inl hkind⟩, rfl⟩
  | item hkind =>
    exact ⟨input, hinput, _, CreateInput.mem_nested.2 ⟨field, hfield, .inr hkind⟩, rfl⟩

/-- No default does harm where no type embeds itself, directly or through others. -/
theorem prepare_ends_of_acyclic (h : ∀ type, ¬ Relation.TransGen model.Embeds type type)
    (creation : Creation) (id : TypeId) (payload : Json.Object) :
    model.prepare creation id payload ≠ .error .endless := by
  intro hcut
  obtain ⟨start, -, -, hcycle⟩ := exists_cycle_of_endless hcut
  exact h start.1 (hcycle.lift Prod.fst fun _ _ => embeds_of_leads)

end Model

end EntitySchema
