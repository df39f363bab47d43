import EntitySchema.Proofs.UpdateInput.Layout

/-! # Why a document has no Update inputs

The faults of a field, said without how its inputs are made. A document gets its Update inputs if no
changeable field of a root or child entity has a fault. Otherwise it stays as it is, and the fault
that comes first is reported: those of the root entities before those of the child entities, fields
in their order, the faults of one field in an order of their own. -/
namespace EntitySchema

open Sdl

namespace UpdateInput

/-! ### Faults -/

def NamesOperator (value : Value) : Prop :=
  ∃ operator : CalcOperator,
    value = .enumeration operator.keyword ∨ value = .string operator.keyword

def misnamed : Value → SynthesisProblem
  | .enumeration keyword | .string keyword => .unknownOperator keyword
  | value => .invalidOperator value

inductive Fault (document : Document) (field : FieldDef) : String → SynthesisProblem → Prop
  | nested {item : TypeExpr} {required required' : Bool}
      (htype : field.type = .list (.list item required) required') :
      Fault document field "LIST_OF_LISTS" .listOfLists
  | input {type : TypeDef}
      (hfound : document.definition? field.type.innermost = some (.input type)) :
      Fault document field "UNSUPPORTED_TYPE" (.unsupportedType field.type.innermost)
  | unknown (hfound : document.definition? field.type.innermost = none)
      (hscalar : field.type.innermost ∉ builtinScalars) :
      Fault document field "UNKNOWN_TYPE" (.unknownType field.type.innermost)
  | embedded {type : TypeDef} (hsingle : field.type.isList = false)
      (hrelation : Directive.present field.directives Directive.relation = false)
      (hreference : Directive.present field.directives Directive.reference = false)
      (hfound : document.definition? field.type.innermost = some (.object type))
      (hroot : type.isRootEntity = true) (hchild : type.isChildEntity = false)
      (hextension : type.isEntityExtension = false) :
      Fault document field "UNSUPPORTED_TYPE" (.unsupportedType field.type.innermost)
  | operator {before after : List Value} {value : Value} (hsingle : field.type.isList = false)
      (hlisted : operatorValues field = before ++ value :: after)
      (hbefore : ∀ other ∈ before, NamesOperator other) (hvalue : ¬ NamesOperator value) :
      Fault document field "INVALID_DIRECTIVE" (misnamed value)

/-- The order in which the faults of one field are reported. -/
def rank : SynthesisProblem → Nat
  | .listOfLists => 0
  | .unsupportedType _ | .unknownType _ => 1
  | .invalidOperator _ | .unknownOperator _ => 2

def FirstOfField (document : Document) (field : FieldDef) (problem : SynthesisProblem) : Prop :=
  Fault document field problem.code problem ∧
    ∀ code other, Fault document field code other → rank problem ≤ rank other

def Sound (document : Document) (field : FieldDef) : Prop :=
  ∀ code problem, ¬ Fault document field code problem

/-- The first fault of a document is that of the first faulty field of the first faulty entity. -/
def FirstFault (document : Document) (e : SynthesisError) : Prop :=
  ∃ earlier type later,
    document.rootEntities ++ document.childEntities = earlier ++ type :: later ∧
      (∀ other ∈ earlier, ∀ field ∈ changeable other, Sound document field) ∧
      ∃ before field after, changeable type = before ++ field :: after ∧
        (∀ other ∈ before, Sound document other) ∧
        e.type = type.name ∧ e.field = field.name ∧ FirstOfField document field e.problem

variable {document : Document} {field : FieldDef} {problem : SynthesisProblem}
  {e : SynthesisError}

/-! ### Operators -/

theorem ofKeyword?_eq_none_iff {keyword : String} :
    CalcOperator.ofKeyword? keyword = none ↔
      ∀ operator : CalcOperator, operator.keyword ≠ keyword := by
  have hall : ∀ operator : CalcOperator, operator ∈ CalcOperator.all := by
    intro operator
    cases operator <;> decide
  simp only [CalcOperator.ofKeyword?, List.find?_eq_none, beq_iff_eq]
  exact ⟨fun h operator => h operator (hall operator), fun h operator _ => h operator⟩

theorem operator_eq_error_iff {value : Value} :
    operator value = .error problem ↔ ¬ NamesOperator value ∧ problem = misnamed value := by
  have hkeyword : ∀ keyword : String,
      ((CalcOperator.ofKeyword? keyword).elim
          (.error (.unknownOperator keyword) : Except SynthesisProblem CalcOperator) .ok =
        .error problem) ↔
      (∀ operator : CalcOperator, operator.keyword ≠ keyword) ∧
        problem = .unknownOperator keyword := by
    intro keyword
    rw [← ofKeyword?_eq_none_iff]
    cases CalcOperator.ofKeyword? keyword <;> simp [eq_comm]
  cases value with
  | enumeration keyword =>
    simpa [operator, NamesOperator, misnamed, eq_comm] using hkeyword keyword
  | string keyword => simpa [operator, NamesOperator, misnamed, eq_comm] using hkeyword keyword
  | _ => simp [operator, NamesOperator, misnamed, eq_comm]

theorem exists_operator_iff {value : Value} :
    (∃ listed, operator value = .ok listed) ↔ NamesOperator value := by
  cases hoperator : operator value with
  | ok listed =>
    simp only [Except.ok.injEq, exists_eq', true_iff]
    by_contra hvalue
    rw [operator_eq_error_iff.2 ⟨hvalue, rfl⟩] at hoperator
    cases hoperator
  | error problem => simpa using (operator_eq_error_iff.1 hoperator).1

/-! ### Fields -/

theorem resolve_eq_object_iff {name : String} {type : TypeDef} :
    resolve document name = .ok (.object type) ↔
      document.definition? name = some (.object type) := by
  rw [resolve]
  cases document.definition? name with
  | none => by_cases hscalar : isBuiltinScalar name = true <;> simp [hscalar]
  | some definition => cases definition <;> simp

theorem resolve_eq_error_iff {name : String} :
    resolve document name = .error problem ↔
      (∃ type, document.definition? name = some (.input type)) ∧ problem = .unsupportedType name ∨
        document.definition? name = none ∧ name ∉ builtinScalars ∧ problem = .unknownType name := by
  rw [resolve]
  cases document.definition? name with
  | none => by_cases hscalar : name ∈ builtinScalars <;> simp [isBuiltinScalar, hscalar, eq_comm]
  | some definition => cases definition <;> simp [eq_comm]

theorem valueTypeName_eq_error_iff {name : String} {target : Target} :
    valueTypeName field name target = .error problem ↔
      ∃ type, target = .object type ∧
        Directive.present field.directives Directive.relation = false ∧
        Directive.present field.directives Directive.reference = false ∧
        type.isRootEntity = true ∧ type.isChildEntity = false ∧ type.isEntityExtension = false ∧
        problem = .unsupportedType name := by
  cases target with
  | leaf => simp [valueTypeName]
  | object type =>
    rw [valueTypeName]
    constructor
    · intro h
      split_ifs at h with hrelation hreference hpart hroot
      cases h
      rw [Bool.or_eq_true, not_or, Bool.not_eq_true, Bool.not_eq_true] at hpart
      rw [Bool.not_eq_true] at hrelation hreference
      exact ⟨type, rfl, hrelation, hreference, hroot, hpart.1, hpart.2, rfl⟩
    · rintro ⟨_, heq, hrelation, hreference, hroot, hchild, hextension, rfl⟩
      cases heq
      simp [hrelation, hreference, hroot, hchild, hextension]

theorem operators_eq_error_iff :
    (operatorValues field).mapM operator = .error problem ↔ ∃ before value after,
      operatorValues field = before ++ value :: after ∧ (∀ other ∈ before, NamesOperator other) ∧
        ¬ NamesOperator value ∧ problem = misnamed value := by
  simp only [Results.mapM_eq_error_iff, exists_operator_iff, operator_eq_error_iff]

theorem valueInputs_eq_error_iff {name : String} :
    valueInputs document field name = .error problem ↔
      resolve document name = .error problem ∨ ∃ target, resolve document name = .ok target ∧
        (valueTypeName field name target = .error problem ∨
          ∃ typeName, valueTypeName field name target = .ok typeName ∧
            (operatorValues field).mapM operator = .error problem) := by
  simp only [valueInputs, Results.bind_eq_error_iff, Results.pure_ne_error, and_false,
    exists_false, or_false]

theorem listInputs_eq_error_iff {name : String} :
    listInputs document field name = .error problem ↔ resolve document name = .error problem := by
  rw [listInputs, Results.bind_eq_error_iff, or_iff_left_iff_imp]
  rintro ⟨target, -, hmade⟩
  cases target with
  | leaf => cases hmade
  | object type =>
    dsimp only at hmade
    split_ifs at hmade <;> cases hmade

theorem rank_misnamed (value : Value) : rank (misnamed value) = 2 := by
  cases value <;> rfl

theorem code_misnamed (value : Value) : (misnamed value).code = "INVALID_DIRECTIVE" := by
  cases value <;> rfl

/-- Only lists of lists are reported before a type is looked up. -/
theorem Fault.one_le_rank {code : String} (h : Fault document field code problem)
    (hflat : ∀ item required required', field.type ≠ .list (.list item required) required') :
    1 ≤ rank problem := by
  cases h with
  | nested htype => exact absurd htype (hflat _ _ _)
  | input | unknown | embedded => exact Nat.le_refl 1
  | operator =>
    rw [rank_misnamed]
    exact Nat.le_succ 1

theorem firstOfField_of_resolve
    (hflat : ∀ item required required', field.type ≠ .list (.list item required) required')
    (h : resolve document field.type.innermost = .error problem) :
    FirstOfField document field problem := by
  rcases resolve_eq_error_iff.1 h with ⟨⟨type, hfound⟩, rfl⟩ | ⟨hfound, hscalar, rfl⟩
  · exact ⟨.input hfound, fun code other hother => hother.one_le_rank hflat⟩
  · exact ⟨.unknown hfound hscalar, fun code other hother => hother.one_le_rank hflat⟩

/-- An operator is reported where nothing else is wrong. -/
theorem Fault.two_le_rank {name code : String} {required : Bool} {target : Target}
    {typeName : String} (h : Fault document field code problem)
    (htype : field.type = .named name required) (hresolve : resolve document name = .ok target)
    (hname : valueTypeName field name target = .ok typeName) : 2 ≤ rank problem := by
  have hinnermost : field.type.innermost = name := by rw [htype, TypeExpr.innermost]
  cases h with
  | nested hlist =>
    rw [htype] at hlist
    cases hlist
  | input hfound =>
    rw [hinnermost] at hfound
    rw [resolve_eq_error_iff.2 (.inl ⟨⟨_, hfound⟩, rfl⟩)] at hresolve
    cases hresolve
  | unknown hfound hscalar =>
    rw [hinnermost] at hfound hscalar
    rw [resolve_eq_error_iff.2 (.inr ⟨hfound, hscalar, rfl⟩)] at hresolve
    cases hresolve
  | embedded _ hrelation hreference hfound hroot hchild hextension =>
    rw [hinnermost] at hfound
    rw [resolve, hfound, Except.ok.injEq] at hresolve
    subst hresolve
    rw [valueTypeName_eq_error_iff.2
      ⟨_, rfl, hrelation, hreference, hroot, hchild, hextension, rfl⟩] at hname
    cases hname
  | operator => exact Nat.le_of_eq (rank_misnamed _).symm

theorem firstOfField_of_eq_error (h : fieldInputs document field = .error problem) :
    FirstOfField document field problem := by
  cases htype : field.type with
  | named name required =>
    have hflat : ∀ item required required',
        field.type ≠ .list (.list item required) required' := by simp [htype]
    have hinnermost : field.type.innermost = name := by rw [htype, TypeExpr.innermost]
    have hsingle : field.type.isList = false := by rw [htype, TypeExpr.isList]
    simp only [fieldInputs, htype] at h
    rcases valueInputs_eq_error_iff.1 h with hresolve | ⟨target, htarget, hname | ⟨_, hname, hcalc⟩⟩
    · exact firstOfField_of_resolve hflat (hinnermost ▸ hresolve)
    · obtain ⟨type, rfl, hrelation, hreference, hroot, hchild, hextension, rfl⟩ :=
        valueTypeName_eq_error_iff.1 hname
      rw [← hinnermost] at htarget ⊢
      have hfault : Fault document field "UNSUPPORTED_TYPE" (.unsupportedType _) :=
        .embedded hsingle hrelation hreference (resolve_eq_object_iff.1 htarget) hroot hchild
          hextension
      exact ⟨hfault, fun code other hother => hother.one_le_rank hflat⟩
    · obtain ⟨before, value, after, hlisted, hbefore, hvalue, rfl⟩ := operators_eq_error_iff.1 hcalc
      have hfault : Fault document field "INVALID_DIRECTIVE" (misnamed value) :=
        .operator hsingle hlisted hbefore hvalue
      rw [FirstOfField, code_misnamed, rank_misnamed]
      exact ⟨hfault, fun code other hother => hother.two_le_rank htype htarget hname⟩
  | list item required =>
    cases hitem : item with
    | named name required' =>
      have hflat : ∀ item required required',
          field.type ≠ .list (.list item required) required' := by simp [htype, hitem]
      simp only [fieldInputs, htype, hitem, listInputs_eq_error_iff] at h
      refine firstOfField_of_resolve hflat ?_
      rw [htype, hitem]
      exact h
    | list inner required' =>
      simp only [fieldInputs, htype, hitem, Except.error.injEq] at h
      subst h
      exact ⟨.nested (htype.trans (by rw [hitem])), fun code other _ => Nat.zero_le _⟩

theorem exists_resolve_of_fieldInputs {inputs : List FieldDef}
    (h : fieldInputs document field = .ok inputs) :
    ∃ target, resolve document field.type.innermost = .ok target := by
  rcases inputs_of_fieldInputs h with ⟨-, hvalue⟩ | ⟨-, hlist⟩
  · obtain ⟨target, htarget, -⟩ := valueInputs_eq_ok_iff.1 hvalue
    exact ⟨target, htarget⟩
  · obtain ⟨target, htarget, -⟩ := Results.bind_eq_ok_iff.1 hlist
    exact ⟨target, htarget⟩

theorem fieldInputs_of_single (hsingle : field.type.isList = false) :
    fieldInputs document field = valueInputs document field field.type.innermost := by
  cases htype : field.type with
  | named name required => simp only [fieldInputs, htype, TypeExpr.innermost]
  | list item required =>
    rw [htype, TypeExpr.isList] at hsingle
    cases hsingle

/-- A field that can be updated has no fault. -/
theorem sound_of_fieldInputs {inputs : List FieldDef}
    (h : fieldInputs document field = .ok inputs) : Sound document field := by
  intro code problem hfault
  obtain ⟨target, htarget⟩ := exists_resolve_of_fieldInputs h
  cases hfault with
  | nested htype => simp [fieldInputs, htype] at h
  | input hfound =>
    rw [resolve_eq_error_iff.2 (.inl ⟨⟨_, hfound⟩, rfl⟩)] at htarget
    cases htarget
  | unknown hfound hscalar =>
    rw [resolve_eq_error_iff.2 (.inr ⟨hfound, hscalar, rfl⟩)] at htarget
    cases htarget
  | embedded hsingle hrelation hreference hfound hroot hchild hextension =>
    rw [fieldInputs_of_single hsingle, valueInputs_eq_error_iff.2
      (.inr ⟨_, resolve_eq_object_iff.2 hfound, .inl (valueTypeName_eq_error_iff.2
        ⟨_, rfl, hrelation, hreference, hroot, hchild, hextension, rfl⟩)⟩)] at h
    cases h
  | operator hsingle hlisted hbefore hvalue =>
    rw [fieldInputs_of_single hsingle] at h
    obtain ⟨_, -, _, -, _, hread, -⟩ := valueInputs_eq_ok_iff.1 h
    rw [operators_eq_error_iff.2 ⟨_, _, _, hlisted, hbefore, hvalue, rfl⟩] at hread
    cases hread

theorem sound_iff_exists_fieldInputs :
    Sound document field ↔ ∃ inputs, fieldInputs document field = .ok inputs := by
  refine ⟨fun hsound => ?_, fun ⟨_, h⟩ => sound_of_fieldInputs h⟩
  cases hinputs : fieldInputs document field with
  | ok inputs => exact ⟨inputs, rfl⟩
  | error problem => exact absurd (firstOfField_of_eq_error hinputs).1 (hsound _ _)

/-- The values in front of the first one that names no operator tell which one that is. -/
theorem first_misnamed {values before after before' after' : List Value} {value value' : Value}
    (h : values = before ++ value :: after) (hbefore : ∀ other ∈ before, NamesOperator other)
    (hvalue : ¬ NamesOperator value) (h' : values = before' ++ value' :: after')
    (hbefore' : ∀ other ∈ before', NamesOperator other) (hvalue' : ¬ NamesOperator value') :
    value = value' := by
  classical
  have hfind : values.find? (fun other => decide (¬ NamesOperator other)) = some value :=
    List.find?_eq_some_iff_append.2
      ⟨by simpa using hvalue, before, after, h, by simpa using hbefore⟩
  have hfind' : values.find? (fun other => decide (¬ NamesOperator other)) = some value' :=
    List.find?_eq_some_iff_append.2
      ⟨by simpa using hvalue', before', after', h', by simpa using hbefore'⟩
  exact Option.some.inj (hfind.symm.trans hfind')

theorem eq_listOfLists_of_rank (h : rank problem = 0) : problem = .listOfLists := by
  cases problem with
  | listOfLists => rfl
  | _ => cases h

/-- What is reported of a type that is looked up. -/
theorem Fault.eq_of_lookup {code : String} (h : Fault document field code problem)
    (hrank : rank problem = 1) :
    problem = if (document.definition? field.type.innermost).isSome then
        .unsupportedType field.type.innermost
      else .unknownType field.type.innermost := by
  cases h with
  | input hfound | unknown hfound | embedded _ _ _ hfound => simp [hfound]
  | nested => cases hrank
  | operator =>
    rw [rank_misnamed] at hrank
    cases hrank

theorem Fault.exists_misnamed {code : String} (h : Fault document field code problem)
    (hrank : rank problem = 2) : ∃ before value after,
      operatorValues field = before ++ value :: after ∧ (∀ other ∈ before, NamesOperator other) ∧
        ¬ NamesOperator value ∧ problem = misnamed value := by
  cases h with
  | operator _ hlisted hbefore hvalue => exact ⟨_, _, _, hlisted, hbefore, hvalue, rfl⟩
  | nested | input | unknown | embedded => cases hrank

/-- Two faults of a field that are equally urgent are the same. -/
theorem Fault.eq_of_rank {code code' : String} {other : SynthesisProblem}
    (h : Fault document field code problem) (h' : Fault document field code' other)
    (hrank : rank problem = rank other) : problem = other := by
  have hcases : rank problem = 0 ∨ rank problem = 1 ∨ rank problem = 2 := by
    cases problem <;> simp [rank]
  rcases hcases with hzero | hone | htwo
  · rw [eq_listOfLists_of_rank hzero, eq_listOfLists_of_rank (hrank.symm.trans hzero)]
  · rw [h.eq_of_lookup hone, h'.eq_of_lookup (hrank ▸ hone)]
  · obtain ⟨_, value, _, hlisted, hbefore, hvalue, rfl⟩ := h.exists_misnamed htwo
    obtain ⟨_, value', _, hlisted', hbefore', hvalue', rfl⟩ := h'.exists_misnamed (hrank ▸ htwo)
    rw [first_misnamed hlisted hbefore hvalue hlisted' hbefore' hvalue']

theorem fieldInputs_eq_error_iff :
    fieldInputs document field = .error problem ↔ FirstOfField document field problem := by
  refine ⟨firstOfField_of_eq_error, fun hfirst => ?_⟩
  cases hinputs : fieldInputs document field with
  | ok inputs => exact absurd hfirst.1 (sound_of_fieldInputs hinputs _ _)
  | error other =>
    have hother := firstOfField_of_eq_error hinputs
    have hrank : rank other = rank problem :=
      Nat.le_antisymm (hother.2 _ _ hfirst.1) (hfirst.2 _ _ hother.1)
    rw [hother.1.eq_of_rank hfirst.1 hrank]

/-! ### Entities -/

theorem exists_typeInputs_iff {type : TypeDef} :
    (∃ inputs, typeInputs document type = .ok inputs) ↔
      ∀ field ∈ changeable type, Sound document field := by
  simp only [typeInputs_eq_ok_iff, exists_and_left, exists_eq, and_true]
  constructor
  · exact fun h field hfield => sound_of_fieldInputs (h field hfield)
  · intro h field hfield
    obtain ⟨inputs, hinputs⟩ := sound_iff_exists_fieldInputs.1 (h field hfield)
    rw [hinputs, block_of_fieldInputs hinputs]

theorem typeInputs_eq_error_iff {type : TypeDef} :
    typeInputs document type = .error e ↔ ∃ before field after,
      changeable type = before ++ field :: after ∧ (∀ other ∈ before, Sound document other) ∧
        e.type = type.name ∧ e.field = field.name ∧ FirstOfField document field e.problem := by
  have hreport : ∀ field : FieldDef,
      ((fieldInputs document field).mapError fun problem =>
        ({ type := type.name, field := field.name, problem } : SynthesisError)) = .error e ↔
      e.type = type.name ∧ e.field = field.name ∧ FirstOfField document field e.problem := by
    intro field
    rw [Results.mapError_eq_error_iff, ← fieldInputs_eq_error_iff]
    constructor
    · rintro ⟨problem, hproblem, rfl⟩
      exact ⟨rfl, rfl, hproblem⟩
    · rintro ⟨htype, hfield, hproblem⟩
      exact ⟨e.problem, hproblem, by rw [← htype, ← hfield]⟩
  simp only [typeInputs, Results.bind_eq_error_iff, Results.pure_ne_error, and_false, exists_false,
    or_false, Results.mapM_eq_error_iff, hreport, Results.mapError_eq_ok_iff,
    ← sound_iff_exists_fieldInputs, changeable]

/-! ### Documents -/

/-- Root and child entities are gone through as one list. -/
theorem synthesize_eq_error_iff_mapM : synthesize document = .error e ↔
    (document.rootEntities ++ document.childEntities).mapM (typeInputs document) = .error e := by
  rw [synthesize, List.mapM_append]
  simp only [Results.bind_eq_error_iff, Results.mapM_map_eq_error_iff, Results.pure_ne_error,
    and_false, exists_false, or_false, exists_and_right, Results.exists_ok_iff, ne_eq]

theorem synthesize_eq_error_iff :
    synthesize document = .error e ↔ FirstFault document e := by
  rw [synthesize_eq_error_iff_mapM, Results.mapM_eq_error_iff]
  simp only [exists_typeInputs_iff, typeInputs_eq_error_iff]
  rfl

/-- Only root and child entities are looked at. -/
theorem exists_firstFault_iff :
    (∃ e, FirstFault document e) ↔ ∃ type ∈ document.objectTypes,
      (type.isRootEntity = true ∨ type.isChildEntity = true) ∧
        ∃ field ∈ changeable type, ¬ Sound document field := by
  constructor
  · rintro ⟨e, earlier, type, later, htypes, -, before, field, after, hfields, -, -, -, hfirst⟩
    have htype : type ∈ document.rootEntities ++ document.childEntities := by simp [htypes]
    obtain ⟨hmem, hrole⟩ := mem_entities_iff.1 htype
    exact ⟨type, hmem, hrole, field, by simp [hfields], fun hsound => hsound _ _ hfirst.1⟩
  · rintro ⟨type, hmem, hrole, field, hfield, hfaulty⟩
    cases hinputs : synthesize document with
    | error e => exact ⟨e, synthesize_eq_error_iff.1 hinputs⟩
    | ok inputs =>
      have hsound := exists_typeInputs_iff.1 (exists_typeInputs hinputs hmem hrole)
      exact absurd (hsound field hfield) hfaulty

/-! ### Passes -/

/-- The pass in place and the extended document agree, and a failure changes nothing. -/
theorem apply_pass (document : Document) :
    pass.apply document = match extend document with
      | .ok extended => (.ok (), extended)
      | .error e => (.error e, document) := by
  -- Reading the document leaves a continuation of the result of the synthesis.
  have hrun : pass.apply document =
      (ExceptT.bindCont (m := StateM Document) (fun inputs => (modify fun document =>
        { definitions := document.definitions ++ inputs.map .input } : Pass))
        (synthesize document)).run document := rfl
  rw [hrun, extend]
  cases synthesize document <;> rfl

theorem apply_pass_eq_error_iff {after : Document} :
    pass.apply document = (.error e, after) ↔
      synthesize document = .error e ∧ after = document := by
  rw [apply_pass, extend]
  cases synthesize document with
  | ok inputs => simp [bind, Except.bind, pure, Except.pure]
  | error other => simp [bind, Except.bind, eq_comm]

theorem apply_pass_eq_ok_iff {after : Document} :
    pass.apply document = (.ok (), after) ↔ extend document = .ok after := by
  rw [apply_pass]
  cases extend document <;> simp

theorem apply_inOrder_cons (first : Pass) (rest : List Pass) (document : Document) :
    (inOrder (first :: rest)).apply document = match first.apply document with
      | (.ok (), after) => (inOrder rest).apply after
      | (.error e, after) => (.error e, after) := by
  have hrun : (inOrder (first :: rest)).apply document =
      (ExceptT.bindCont (m := StateM Document) (fun _ => inOrder rest)
        (first.apply document).1).run (first.apply document).2 := rfl
  rw [hrun]
  rcases first.apply document with ⟨_ | _, after⟩ <;> rfl

theorem mem_changeable_iff {type : TypeDef} :
    field ∈ changeable type ↔
      field ∈ type.fields ∧ field.name ∉ ["id", "createdAt", "updatedAt"] := by
  simp [changeable, isSystemField, Names.idField, Names.createdAtField, Names.updatedAtField]

/-- A document either keeps its definitions in front and gets its inputs behind them, or has a fault
and stays as it is; the error tells its first fault. -/
theorem outcome_of_pass (document : Document) :
    (∀ after, pass.apply document = (.ok (), after) ↔ ∃ inputs, synthesize document = .ok inputs ∧
      after.definitions = document.definitions ++ inputs.map .input) ∧
    (∀ e after, pass.apply document = (.error e, after) ↔
      after = document ∧ FirstFault document e) ∧
    ((∃ e after, pass.apply document = (.error e, after)) ↔ ∃ type ∈ document.objectTypes,
      (type.isRootEntity = true ∨ type.isChildEntity = true) ∧
        ∃ field ∈ type.fields, field.name ∉ ["id", "createdAt", "updatedAt"] ∧
          ∃ code problem, Fault document field code problem) := by
  refine ⟨fun after => ?_, fun e after => ?_, ?_⟩
  · rw [apply_pass_eq_ok_iff, extend_eq_ok_iff]
    cases after
    simp only [Document.mk.injEq]
  · rw [apply_pass_eq_error_iff, synthesize_eq_error_iff, and_comm]
  · have hfails : (∃ e after, pass.apply document = (.error e, after)) ↔
        ∃ e, FirstFault document e := by
      simp only [apply_pass_eq_error_iff, synthesize_eq_error_iff, exists_and_left, exists_eq,
        and_true]
    rw [hfails, exists_firstFault_iff]
    simp only [mem_changeable_iff, Sound, not_forall, not_not, and_assoc]

/-- The item comes first in the text, but the order is a root entity, and of its two fields the list
of lists is in front. -/
example : (pass.apply
    { definitions :=
      [.object { name := "Item", directives := [{ name := "childEntity" }]
                 fields := [{ name := "size", type := .optional "Size" }] },
       .object { name := "Order", directives := [{ name := "rootEntity" }]
                 fields :=
                   [{ name := "grid", type := .list (.listOf "Size") true },
                    { name := "size", type := .optional "Size" }] }] }).1.mapError
      (fun e => (e.problem.code, e.message)) =
    .error ("LIST_OF_LISTS", "Field \"Order.grid\": lists of lists are not allowed") := by
  rfl

end UpdateInput

end EntitySchema
