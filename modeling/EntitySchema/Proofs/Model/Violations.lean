import EntitySchema.Proofs.Model.Resolved
import Mathlib.Data.List.TakeWhile

/-! # Which declarations are accepted

The rules for a declaration, said without how it is resolved. A declaration that keeps them all is
accepted. One that violates a rule is rejected with the violation that comes first: types and fields
in their order, the rules for a field in an order of their own. -/
namespace EntitySchema

/-! ### The rules -/

def TypeDecl.systemNames (type : TypeDecl) : List String :=
  if type.kind = .rootEntity ∨ type.kind = .childEntity then ["id", "createdAt", "updatedAt"]
  else []

/-- The part of a dotted path in front of its first dot, or all of a path without one. -/
def IsHead (head path : String) : Prop :=
  '.' ∉ head.toList ∧ (path = head ∨ ∃ rest, path = head ++ "." ++ rest)

def TypeDecl.Sorts (type : TypeDecl) (clause : SortClause) : Prop :=
  ∃ head, IsHead head clause.field ∧ head ∈ type.systemNames ++ type.fields.map (·.name)

namespace ModelDecl

structure FieldTyped (decl : ModelDecl) (field : FieldDecl) : Prop where
  known : (∃ target ∈ decl.types, target.name = field.typeName) ∨
    field.typeName ∈ builtinScalars ∨ field.typeName ∈ decl.enums
  listed : ∀ target ∈ decl.types, target.name = field.typeName → target.kind = .childEntity →
    field.list = true
  linked : ∀ target ∈ decl.types, target.name = field.typeName → target.kind = .rootEntity →
    field.relation = true ∨ field.reference = true
  embedded : ∀ target ∈ decl.types, target.name = field.typeName → target.kind ≠ .rootEntity →
    field.relation = false ∧ field.reference = false

structure FieldsAllowed (decl : ModelDecl) (type : TypeDecl) (fields : List FieldDecl) : Prop where
  names : (fields.map (·.name)).Nodup
  foreign : ∀ field ∈ fields, field.name ∉ type.systemNames
  typed : ∀ field ∈ fields, decl.FieldTyped field

structure TypeAllowed (decl : ModelDecl) (type : TypeDecl) : Prop where
  fields : decl.FieldsAllowed type type.fields
  sorted : type.kind = .rootEntity → ∀ clause ∈ type.primarySort, type.Sorts clause

structure WellFormed (decl : ModelDecl) : Prop where
  names : (decl.types.map (·.name)).Nodup
  types : ∀ type ∈ decl.types, decl.TypeAllowed type

end ModelDecl

/-! ### Their violations -/

/-- The order in which the violations of one field are reported. -/
def ModelError.rank : ModelError → Nat
  | .duplicateField .. => 0
  | .nonListChildEntityField .. => 1
  | .embeddedRootEntity .. => 2
  | .invalidRelationTarget .. => 3
  | .unknownType .. => 4
  | .duplicateType .. | .unknownPrimarySortField .. => 5

namespace ModelDecl

/-- A rule that a field violates where some names are taken. -/
inductive Violates (decl : ModelDecl) (type : TypeDecl) (taken : List String) (field : FieldDecl) :
    ModelError → Prop
  | repeated (htaken : field.name ∈ taken) :
      Violates decl type taken field (.duplicateField type.name field.name)
  | unlisted {target : TypeDecl} (htarget : target ∈ decl.types)
      (hname : target.name = field.typeName) (hkind : target.kind = .childEntity)
      (hlist : field.list = false) :
      Violates decl type taken field (.nonListChildEntityField type.name field.name)
  | unlinked {target : TypeDecl} (htarget : target ∈ decl.types)
      (hname : target.name = field.typeName) (hkind : target.kind = .rootEntity)
      (hrelation : field.relation = false) (hreference : field.reference = false) :
      Violates decl type taken field (.embeddedRootEntity type.name field.name field.typeName)
  | linked {target : TypeDecl} (htarget : target ∈ decl.types)
      (hname : target.name = field.typeName) (hkind : target.kind ≠ .rootEntity)
      (hlinked : field.relation = true ∨ field.reference = true) :
      Violates decl type taken field (.invalidRelationTarget type.name field.name field.typeName)
  | unknown (htypes : ∀ target ∈ decl.types, target.name ≠ field.typeName)
      (hscalars : field.typeName ∉ builtinScalars) (henums : field.typeName ∉ decl.enums) :
      Violates decl type taken field (.unknownType type.name field.name field.typeName)

def FirstOfField (decl : ModelDecl) (type : TypeDecl) (taken : List String) (field : FieldDecl)
    (e : ModelError) : Prop :=
  decl.Violates type taken field e ∧
    ∀ other, decl.Violates type taken field other → e.rank ≤ other.rank

inductive FirstOfType (decl : ModelDecl) (type : TypeDecl) : ModelError → Prop
  | field {before after : List FieldDecl} {field : FieldDecl} {e : ModelError}
      (hsplit : type.fields = before ++ field :: after) (hbefore : decl.FieldsAllowed type before)
      (hfirst : decl.FirstOfField type (type.systemNames ++ before.map (·.name)) field e) :
      FirstOfType decl type e
  | sort {before after : List SortClause} {clause : SortClause}
      (hfields : decl.FieldsAllowed type type.fields) (hkind : type.kind = .rootEntity)
      (hsplit : type.primarySort = before ++ clause :: after)
      (hbefore : ∀ other ∈ before, type.Sorts other) (hclause : ¬ type.Sorts clause) :
      FirstOfType decl type (.unknownPrimarySortField type.name clause.field)

/-- The first violation in a declaration is the first repeated name of a type, or else the first one
in the first bad type. -/
inductive FirstViolation (decl : ModelDecl) : ModelError → Prop
  | repeatedType {before after : List TypeDecl} {type : TypeDecl}
      (hsplit : decl.types = before ++ type :: after) (hbefore : (before.map (·.name)).Nodup)
      (hname : type.name ∈ before.map (·.name)) : FirstViolation decl (.duplicateType type.name)
  | inType {before after : List TypeDecl} {type : TypeDecl} {e : ModelError}
      (hnames : (decl.types.map (·.name)).Nodup) (hsplit : decl.types = before ++ type :: after)
      (hbefore : ∀ other ∈ before, decl.TypeAllowed other) (hfirst : decl.FirstOfType type e) :
      FirstViolation decl e

variable {decl : ModelDecl} {type : TypeDecl} {taken : List String} {field : FieldDecl}
  {e : ModelError}

/-! ### Fields -/

/-- Where type names are distinct, a lookup finds the one type of the name. -/
theorem lookup?_eq_some_of (hnames : (decl.types.map (·.name)).Nodup) {name : String} {id : TypeId}
    {kind : TypeKind} (h : decl.lookup? name = some (id, kind)) :
    ∃ target ∈ decl.types, target.name = name ∧ target.kind = kind ∧
      ∀ other ∈ decl.types, other.name = name → other = target := by
  obtain ⟨target, hget, hname, hkind⟩ := getElem?_of_lookup? h
  have htarget : target ∈ decl.types := List.mem_of_getElem? hget
  refine ⟨target, htarget, hname, hkind, fun other hother hsame => ?_⟩
  exact List.inj_on_of_nodup_map hnames hother htarget (hsame.trans hname.symm)

theorem lookup?_eq_none {name : String} (h : decl.lookup? name = none) :
    ∀ target ∈ decl.types, target.name ≠ name := by
  intro target htarget hname
  simp only [lookup?, Option.bind_eq_bind, Option.bind_eq_none_iff] at h
  cases hfound : decl.types.findIdx? (·.name == name) with
  | none =>
    rw [List.findIdx?_eq_none_iff] at hfound
    simpa [hname] using hfound target htarget
  | some found =>
    obtain ⟨hlt, -⟩ := List.findIdx?_eq_some_iff_getElem.1 hfound
    have hnone := h found hfound _ (List.getElem?_eq_getElem hlt)
    cases hnone

/-- The violations of a field have different places in the order. -/
theorem Violates.eq_of_rank {other : ModelError} (h : decl.Violates type taken field e)
    (hother : decl.Violates type taken field other) (hrank : e.rank = other.rank) : e = other := by
  cases h <;> cases hother <;> first | rfl | cases hrank

theorem FirstOfField.unique {other : ModelError} (h : decl.FirstOfField type taken field e)
    (hother : decl.FirstOfField type taken field other) : e = other :=
  h.1.eq_of_rank hother.1 (Nat.le_antisymm (h.2 other hother.1) (hother.2 e h.1))

theorem violates_iff_of_new (hnew : field.name ∉ taken) :
    (∀ e, ¬ decl.Violates type taken field e) ↔ decl.FieldTyped field := by
  constructor
  · intro hnone
    constructor
    · by_contra hunknown
      simp only [not_or, not_exists, not_and] at hunknown
      exact hnone _ (.unknown hunknown.1 hunknown.2.1 hunknown.2.2)
    · intro target htarget hname hkind
      by_contra hlist
      exact hnone _ (.unlisted htarget hname hkind (by simpa using hlist))
    · intro target htarget hname hkind
      by_contra hlinked
      rw [not_or, Bool.not_eq_true, Bool.not_eq_true] at hlinked
      exact hnone _ (.unlinked htarget hname hkind hlinked.1 hlinked.2)
    · intro target htarget hname hkind
      by_contra hlinked
      apply hnone _ (.linked htarget hname hkind _)
      rw [not_and_or, Bool.not_eq_false, Bool.not_eq_false] at hlinked
      exact hlinked
  · intro htyped e hviolates
    cases hviolates with
    | repeated htaken => exact hnew htaken
    | unlisted htarget hname hkind hlist =>
      have := htyped.listed _ htarget hname hkind
      simp [hlist] at this
    | unlinked htarget hname hkind hrelation hreference =>
      have := htyped.linked _ htarget hname hkind
      simp [hrelation, hreference] at this
    | linked htarget hname hkind hlinked =>
      have := htyped.embedded _ htarget hname hkind
      simp [this.1, this.2] at hlinked
    | unknown htypes hscalars henums =>
      rcases htyped.known with ⟨target, htarget, hname⟩ | hscalar | henum
      · exact htypes target htarget hname
      · exact hscalars hscalar
      · exact henums henum

theorem firstOfField_of_resolveType (hnames : (decl.types.map (·.name)).Nodup)
    (hnew : field.name ∉ taken) (h : decl.resolveType type field = .error e) :
    decl.FirstOfField type taken field e := by
  rw [resolveType] at h
  cases hlookup : decl.lookup? field.typeName with
  | none =>
    have htypes := lookup?_eq_none hlookup
    simp only [hlookup] at h
    split_ifs at h with hscalar henum
    cases h
    constructor
    · exact .unknown htypes (by simpa [isBuiltinScalar] using hscalar) henum
    · intro other hother
      cases hother with
      | repeated htaken => exact absurd htaken hnew
      | unlisted htarget hname => exact absurd hname (htypes _ htarget)
      | unlinked htarget hname => exact absurd hname (htypes _ htarget)
      | linked htarget hname => exact absurd hname (htypes _ htarget)
      | unknown => exact Nat.le_refl _
  | some found =>
    obtain ⟨id, kind⟩ := found
    obtain ⟨target, htarget, hname, rfl, hunique⟩ := lookup?_eq_some_of hnames hlookup
    simp only [hlookup] at h
    split_ifs at h with hlist hroot hlinked
    · cases h
      constructor
      · exact .unlisted htarget hname hlist.1 (by simpa using hlist.2)
      · intro other hother
        cases hother with
        | repeated htaken => exact absurd htaken hnew
        | _ => simp [ModelError.rank]
    · cases h
      have hneither : field.relation = false ∧ field.reference = false := by simpa using hroot.2
      constructor
      · exact .unlinked htarget hname hroot.1 hneither.1 hneither.2
      · intro other hother
        cases hother with
        | repeated htaken => exact absurd htaken hnew
        | unlisted htarget' hname' hkind =>
          rw [hunique _ htarget' hname', hroot.1] at hkind
          cases hkind
        | _ => simp [ModelError.rank]
    · cases h
      have heither : field.relation = true ∨ field.reference = true := by simpa using hlinked.1
      constructor
      · exact .linked htarget hname hlinked.2 heither
      · intro other hother
        cases hother with
        | repeated htaken => exact absurd htaken hnew
        | unlisted htarget' hname' hkind hunlisted =>
          rw [hunique _ htarget' hname'] at hkind
          exact absurd ⟨hkind, by simpa using hunlisted⟩ hlist
        | unlinked htarget' hname' hkind =>
          rw [hunique _ htarget' hname'] at hkind
          exact absurd hkind hlinked.2
        | _ => simp [ModelError.rank]

theorem fieldTyped_of_resolveType (hnames : (decl.types.map (·.name)).Nodup)
    {result : FieldType × Bool} (h : decl.resolveType type field = .ok result) :
    decl.FieldTyped field := by
  rw [resolveType] at h
  cases hlookup : decl.lookup? field.typeName with
  | none =>
    have htypes := lookup?_eq_none hlookup
    simp only [hlookup] at h
    have hknown : field.typeName ∈ builtinScalars ∨ field.typeName ∈ decl.enums := by
      by_contra hunknown
      rw [not_or] at hunknown
      simp [isBuiltinScalar, hunknown.1, hunknown.2] at h
    constructor
    · exact .inr hknown
    · intro target htarget hname
      exact absurd hname (htypes target htarget)
    · intro target htarget hname
      exact absurd hname (htypes target htarget)
    · intro target htarget hname
      exact absurd hname (htypes target htarget)
  | some found =>
    obtain ⟨id, kind⟩ := found
    obtain ⟨target, htarget, hname, rfl, hunique⟩ := lookup?_eq_some_of hnames hlookup
    simp only [hlookup] at h
    split_ifs at h with hlist hroot hlinked
    constructor
    · exact .inl ⟨target, htarget, hname⟩
    · intro other hother hsame hkind
      rw [hunique other hother hsame] at hkind
      simpa [hkind] using hlist
    · intro other hother hsame hkind
      rw [hunique other hother hsame] at hkind
      simpa [hkind, or_iff_not_imp_left] using hroot
    · intro other hother hsame hkind
      rw [hunique other hother hsame] at hkind
      simpa [hkind] using hlinked

theorem exists_resolveType_iff (hnames : (decl.types.map (·.name)).Nodup) :
    (∃ result, decl.resolveType type field = .ok result) ↔ decl.FieldTyped field := by
  constructor
  · rintro ⟨result, h⟩
    exact fieldTyped_of_resolveType hnames h
  · intro htyped
    cases hresult : decl.resolveType type field with
    | ok result => exact ⟨result, rfl⟩
    | error e =>
      have hnew : field.name ∉ ([] : List String) := List.not_mem_nil
      have hfirst := firstOfField_of_resolveType hnames hnew hresult
      exact absurd hfirst.1 ((violates_iff_of_new hnew).2 htyped e)

theorem addField_eq_error_iff (hnames : (decl.types.map (·.name)).Nodup) {id : TypeId}
    {fields : List Field} : decl.addField id type fields field = .error e ↔
      decl.FirstOfField type (fields.map (·.name)) field e := by
  by_cases htaken : field.name ∈ fields.map (·.name)
  · have hfirst : decl.FirstOfField type (fields.map (·.name)) field
        (.duplicateField type.name field.name) := ⟨.repeated htaken, fun _ _ => Nat.zero_le _⟩
    have hany : fields.any (·.name == field.name) = true := by simpa using htaken
    have herror : decl.addField id type fields field =
        .error (.duplicateField type.name field.name) := by
      rw [addField, if_pos hany]
      rfl
    rw [herror, Except.error.injEq]
    constructor
    · rintro rfl
      exact hfirst
    · intro h
      exact hfirst.unique h
  · have hany : ¬ fields.any (·.name == field.name) = true := by simpa using htaken
    have hresolve : decl.addField id type fields field = .error e ↔
        decl.resolveType type field = .error e := by
      rw [addField, if_neg hany]
      cases decl.resolveType type field <;> simp [bind, Except.bind, pure, Except.pure]
    rw [hresolve]
    constructor
    · exact firstOfField_of_resolveType hnames htaken
    · intro h
      cases hresult : decl.resolveType type field with
      | ok result =>
        have htyped := fieldTyped_of_resolveType hnames hresult
        exact absurd h.1 ((violates_iff_of_new htaken).2 htyped e)
      | error other =>
        rw [(firstOfField_of_resolveType hnames htaken hresult).unique h]

/-! ### Types -/

theorem names_addField {id : TypeId} {fields next : List Field}
    (h : decl.addField id type fields field = .ok next) :
    next.map (·.name) = fields.map (·.name) ++ [field.name] := by
  obtain ⟨-, fieldType, childEntities, -, rfl⟩ := addField_eq_ok_iff.1 h
  simp [FieldDecl.toField]

theorem names_foldlM_addField {id : TypeId} {declared : List FieldDecl}
    {fields reached : List Field}
    (h : declared.foldlM (decl.addField id type) fields = .ok reached) :
    reached.map (·.name) = fields.map (·.name) ++ declared.map (·.name) := by
  induction declared generalizing fields with
  | nil =>
    cases h
    simp
  | cons first rest ih =>
    rw [List.foldlM_cons] at h
    obtain ⟨next, hnext, hrest⟩ := Results.bind_eq_ok_iff.1 h
    rw [ih hrest, names_addField hnext, List.map_cons, List.append_assoc, List.singleton_append]

theorem exists_foldlM_addField_iff (hnames : (decl.types.map (·.name)).Nodup) {id : TypeId}
    {declared : List FieldDecl} {fields : List Field} :
    (∃ reached, declared.foldlM (decl.addField id type) fields = .ok reached) ↔
      (declared.map (·.name)).Nodup ∧ (∀ field ∈ declared, field.name ∉ fields.map (·.name)) ∧
        ∀ field ∈ declared, decl.FieldTyped field := by
  induction declared generalizing fields with
  | nil => simp [pure, Except.pure]
  | cons first rest ih =>
    rw [List.foldlM_cons]
    constructor
    · rintro ⟨reached, h⟩
      obtain ⟨next, hnext, hrest⟩ := Results.bind_eq_ok_iff.1 h
      obtain ⟨hnodup, hforeign, htyped⟩ := ih.1 ⟨reached, hrest⟩
      obtain ⟨hnew, fieldType, childEntities, hresolve, -⟩ := addField_eq_ok_iff.1 hnext
      simp only [names_addField hnext, List.mem_append, List.mem_singleton, not_or] at hforeign
      refine ⟨List.nodup_cons.2 ⟨?_, hnodup⟩, ?_, ?_⟩
      · intro hmem
        obtain ⟨other, hother, hsame⟩ := List.mem_map.1 hmem
        exact (hforeign other hother).2 hsame
      · intro field hfield
        rcases List.mem_cons.1 hfield with rfl | hother
        · simpa using hnew
        · exact (hforeign field hother).1
      · intro field hfield
        rcases List.mem_cons.1 hfield with rfl | hother
        · exact (exists_resolveType_iff hnames).1 ⟨_, hresolve⟩
        · exact htyped field hother
    · rintro ⟨hnodup, hforeign, htyped⟩
      obtain ⟨hfirst, hrest⟩ := List.nodup_cons.1 hnodup
      obtain ⟨result, hresolve⟩ : ∃ result, decl.resolveType type first = .ok result :=
        (exists_resolveType_iff hnames).2 (htyped first List.mem_cons_self)
      have hnew : ∀ field ∈ fields, field.name ≠ first.name := by
        simpa using hforeign first List.mem_cons_self
      obtain ⟨next, hnext⟩ : ∃ next, decl.addField id type fields first = .ok next :=
        ⟨_, addField_eq_ok_iff.2 ⟨hnew, result.1, result.2, hresolve, rfl⟩⟩
      have hlater : ∀ field ∈ rest, field.name ∉ next.map (·.name) := by
        intro field hfield
        rw [names_addField hnext, List.mem_append, List.mem_singleton, not_or]
        refine ⟨hforeign field (List.mem_cons_of_mem _ hfield), fun hsame => hfirst ?_⟩
        exact List.mem_map.2 ⟨field, hfield, hsame⟩
      obtain ⟨reached, hreached⟩ := ih.2
        ⟨hrest, hlater, fun field hfield => htyped field (List.mem_cons_of_mem _ hfield)⟩
      exact ⟨reached, Results.bind_eq_ok_iff.2 ⟨next, hnext, hreached⟩⟩

theorem names_systemFields (id : TypeId) (type : TypeDecl) :
    (systemFields id type).map (·.name) = type.systemNames := by
  cases hkind : type.kind <;> simp [systemFields, TypeDecl.systemNames, TypeKind.hasSystemFields,
    hkind, Names.idField, Names.createdAtField, Names.updatedAtField]

theorem exists_declareFields_iff (hnames : (decl.types.map (·.name)).Nodup) (id : TypeId)
    {declared : List FieldDecl} :
    (∃ reached, declared.foldlM (decl.addField id type) (systemFields id type) = .ok reached) ↔
      decl.FieldsAllowed type declared := by
  rw [exists_foldlM_addField_iff hnames, names_systemFields]
  constructor
  · rintro ⟨hnodup, hforeign, htyped⟩
    exact ⟨hnodup, hforeign, htyped⟩
  · intro h
    exact ⟨h.names, h.foreign, h.typed⟩

theorem resolveFields_eq_error_iff (hnames : (decl.types.map (·.name)).Nodup) {id : TypeId} :
    decl.resolveFields id type = .error e ↔ ∃ before field after,
      type.fields = before ++ field :: after ∧ decl.FieldsAllowed type before ∧
        decl.FirstOfField type (type.systemNames ++ before.map (·.name)) field e := by
  rw [resolveFields, Results.foldlM_eq_error_iff]
  constructor
  · rintro ⟨before, field, after, reached, hsplit, hreached, hfield⟩
    refine ⟨before, field, after, hsplit, (exists_declareFields_iff hnames id).1 ⟨_, hreached⟩, ?_⟩
    rw [addField_eq_error_iff hnames, names_foldlM_addField hreached, names_systemFields] at hfield
    exact hfield
  · rintro ⟨before, field, after, hsplit, hbefore, hfirst⟩
    obtain ⟨reached, hreached⟩ := (exists_declareFields_iff hnames id).2 hbefore
    refine ⟨before, field, after, reached, hsplit, hreached, ?_⟩
    rw [addField_eq_error_iff hnames, names_foldlM_addField hreached, names_systemFields]
    exact hfirst

theorem isHead_iff {head path : String} : IsHead head path ↔ head = pathHead path := by
  have hstop : ∀ c ∈ path.toList.takeWhile (· ≠ '.'), c ≠ '.' := by
    intro c hc
    simpa using List.mem_takeWhile_imp hc
  constructor
  · rintro ⟨hdot, rfl | ⟨rest, rfl⟩⟩
    · have hall : ∀ c ∈ path.toList, decide (c ≠ '.') = true := by
        intro c hc
        simpa using fun heq : c = '.' => hdot (heq ▸ hc)
      rw [pathHead, List.takeWhile_eq_self_iff.2 hall, String.ofList_toList]
    · have hall : ∀ c ∈ head.toList, decide (c ≠ '.') = true := by
        intro c hc
        simpa using fun heq : c = '.' => hdot (heq ▸ hc)
      have hpath : (head ++ "." ++ rest).toList = head.toList ++ '.' :: rest.toList := by
        simp
      rw [pathHead, hpath, List.takeWhile_append_of_pos hall, List.takeWhile_cons_of_neg (by simp),
        List.append_nil, String.ofList_toList]
  · rintro rfl
    constructor
    · intro hdot
      rw [pathHead, String.toList_ofList] at hdot
      exact hstop '.' hdot rfl
    · have hsplit : path = pathHead path ++ String.ofList (path.toList.dropWhile (· ≠ '.')) := by
        rw [pathHead, ← String.ofList_append, List.takeWhile_append_dropWhile,
          String.ofList_toList]
      cases hrest : path.toList.dropWhile (· ≠ '.') with
      | nil =>
        left
        rw [hrest] at hsplit
        simpa using hsplit
      | cons c rest =>
        right
        have hc : c = '.' := by
          have hhead := List.head?_dropWhile_not (fun c : Char => decide (c ≠ '.')) path.toList
          rw [hrest] at hhead
          simpa using hhead
        refine ⟨String.ofList rest, ?_⟩
        rw [hrest, hc] at hsplit
        rw [String.append_assoc]
        refine hsplit.trans (congrArg _ ?_)
        apply String.toList_inj.1
        simp

theorem any_pathHead_iff {fields : List Field}
    (hfields : fields.map (·.name) = type.systemNames ++ type.fields.map (·.name))
    {clause : SortClause} :
    fields.any (·.name == pathHead clause.field) = true ↔ type.Sorts clause := by
  simp only [TypeDecl.Sorts, isHead_iff, exists_eq_left, ← hfields, List.any_eq_true, beq_iff_eq,
    List.mem_map]

theorem exists_resolveRoot_iff {fields : List Field}
    (hfields : fields.map (·.name) = type.systemNames ++ type.fields.map (·.name)) :
    (∃ root, resolveRoot type fields = .ok root) ↔
      (type.kind = .rootEntity → ∀ clause ∈ type.primarySort, type.Sorts clause) := by
  by_cases hkind : type.kind = .rootEntity
  · rw [resolveRoot, if_pos hkind]
    dsimp only
    cases hfind : type.primarySort.find?
        (fun clause => !fields.any (·.name == pathHead clause.field)) with
    | none =>
      rw [List.find?_eq_none] at hfind
      refine iff_of_true ⟨_, rfl⟩ fun _ clause hclause => ?_
      have := hfind clause hclause
      exact (any_pathHead_iff hfields).1 (by simpa using this)
    | some clause =>
      have hmem := List.mem_of_find?_eq_some hfind
      have hbad := List.find?_some hfind
      refine iff_of_false (by simp) fun hall => ?_
      rw [(any_pathHead_iff hfields).2 (hall hkind clause hmem)] at hbad
      cases hbad
  · rw [resolveRoot, if_neg hkind]
    exact iff_of_true ⟨_, rfl⟩ fun h => absurd h hkind

theorem resolveRoot_eq_error_iff {fields : List Field}
    (hfields : fields.map (·.name) = type.systemNames ++ type.fields.map (·.name)) :
    resolveRoot type fields = .error e ↔ type.kind = .rootEntity ∧ ∃ before clause after,
      type.primarySort = before ++ clause :: after ∧ (∀ other ∈ before, type.Sorts other) ∧
        ¬ type.Sorts clause ∧ e = .unknownPrimarySortField type.name clause.field := by
  by_cases hkind : type.kind = .rootEntity
  · have hsplits : ∀ clause, type.primarySort.find?
        (fun clause => !fields.any (·.name == pathHead clause.field)) = some clause ↔
        ¬ type.Sorts clause ∧ ∃ before after, type.primarySort = before ++ clause :: after ∧
          ∀ other ∈ before, type.Sorts other := by
      intro clause
      simp only [List.find?_eq_some_iff_append, ← any_pathHead_iff hfields, Bool.not_eq_true',
        Bool.not_eq_true, Bool.not_not]
    rw [resolveRoot, if_pos hkind]
    dsimp only
    cases hfind : type.primarySort.find?
        (fun clause => !fields.any (·.name == pathHead clause.field)) with
    | none =>
      refine iff_of_false (by simp) ?_
      rintro ⟨-, before, clause, after, hsplit, hbefore, hclause, -⟩
      rw [(hsplits clause).2 ⟨hclause, before, after, hsplit, hbefore⟩] at hfind
      cases hfind
    | some clause =>
      constructor
      · intro h
        cases h
        obtain ⟨hclause, before, after, hsplit, hbefore⟩ := (hsplits clause).1 hfind
        exact ⟨hkind, before, clause, after, hsplit, hbefore, hclause, rfl⟩
      · rintro ⟨-, before, other, after, hsplit, hbefore, hother, rfl⟩
        rw [(hsplits other).2 ⟨hother, before, after, hsplit, hbefore⟩, Option.some.injEq] at hfind
        rw [hfind]
  · rw [resolveRoot, if_neg hkind]
    refine iff_of_false (by simp) fun h => hkind h.1

theorem names_resolveFields {id : TypeId} {fields : List Field}
    (h : decl.resolveFields id type = .ok fields) :
    fields.map (·.name) = type.systemNames ++ type.fields.map (·.name) := by
  rw [names_foldlM_addField h, names_systemFields]

theorem exists_resolveObject_iff (hnames : (decl.types.map (·.name)).Nodup) {id : TypeId} :
    (∃ object, decl.resolveObject id type = .ok object) ↔ decl.TypeAllowed type := by
  constructor
  · rintro ⟨object, h⟩
    obtain ⟨fields, hfields, hnext⟩ := Results.bind_eq_ok_iff.1 h
    obtain ⟨root, hroot, -⟩ := Results.bind_eq_ok_iff.1 hnext
    constructor
    · exact (exists_declareFields_iff hnames id).1 ⟨fields, hfields⟩
    · exact (exists_resolveRoot_iff (names_resolveFields hfields)).1 ⟨root, hroot⟩
  · intro h
    obtain ⟨fields, hfields⟩ := (exists_declareFields_iff hnames id).2 h.fields
    obtain ⟨root, hroot⟩ := (exists_resolveRoot_iff (names_resolveFields hfields)).2 h.sorted
    refine ⟨{ id, name := type.name, kind := type.kind, fields, root }, ?_⟩
    rw [resolveObject]
    refine Results.bind_eq_ok_iff.2 ⟨fields, hfields, ?_⟩
    exact Results.bind_eq_ok_iff.2 ⟨root, hroot, rfl⟩

theorem resolveObject_eq_error_iff (hnames : (decl.types.map (·.name)).Nodup) {id : TypeId} :
    decl.resolveObject id type = .error e ↔ decl.FirstOfType type e := by
  constructor
  · intro h
    rcases Results.bind_eq_error_iff.1 h with hfields | ⟨fields, hfields, hnext⟩
    · obtain ⟨before, field, after, hsplit, hbefore, hfirst⟩ :=
        (resolveFields_eq_error_iff hnames).1 hfields
      exact .field hsplit hbefore hfirst
    · have hallowed := (exists_declareFields_iff hnames id).1 ⟨fields, hfields⟩
      rcases Results.bind_eq_error_iff.1 hnext with hroot | ⟨_, _, hdone⟩
      · obtain ⟨hkind, before, clause, after, hsplit, hbefore, hclause, rfl⟩ :=
          (resolveRoot_eq_error_iff (names_resolveFields hfields)).1 hroot
        exact .sort hallowed hkind hsplit hbefore hclause
      · cases hdone
  · intro h
    cases h with
    | field hsplit hbefore hfirst =>
      refine Results.bind_eq_error_iff.2 (.inl ?_)
      exact (resolveFields_eq_error_iff hnames).2 ⟨_, _, _, hsplit, hbefore, hfirst⟩
    | sort hallowed hkind hsplit hbefore hclause =>
      obtain ⟨fields, hfields⟩ := (exists_declareFields_iff hnames id).2 hallowed
      have hroot := (resolveRoot_eq_error_iff (names_resolveFields hfields)).2
        ⟨hkind, _, _, _, hsplit, hbefore, hclause, rfl⟩
      refine Results.bind_eq_error_iff.2 (.inr ⟨fields, hfields, ?_⟩)
      exact Results.bind_eq_error_iff.2 (.inl hroot)

end ModelDecl

/-! ### Declarations -/

theorem firstRepeated?_eq_none_iff {seen names : List String} :
    firstRepeated? seen names = none ↔ names.Nodup ∧ ∀ name ∈ names, name ∉ seen := by
  induction names generalizing seen with
  | nil => simp [firstRepeated?]
  | cons first rest ih =>
    rw [firstRepeated?]
    by_cases hseen : first ∈ seen
    · rw [if_pos hseen]
      refine iff_of_false (by simp) fun h => ?_
      exact h.2 first List.mem_cons_self hseen
    · rw [if_neg hseen, ih, List.nodup_cons]
      simp only [List.mem_cons, not_or, forall_eq_or_imp]
      constructor
      · rintro ⟨hnodup, hnew⟩
        exact ⟨⟨fun hmem => (hnew first hmem).1 rfl, hnodup⟩, hseen, fun name hname =>
          (hnew name hname).2⟩
      · rintro ⟨⟨hfirst, hnodup⟩, -, hnew⟩
        refine ⟨hnodup, fun name hname => ⟨?_, hnew name hname⟩⟩
        rintro rfl
        exact hfirst hname

theorem firstRepeated?_eq_some_iff {seen names : List String} {name : String} :
    firstRepeated? seen names = some name ↔ ∃ before after, names = before ++ name :: after ∧
      before.Nodup ∧ (∀ other ∈ before, other ∉ seen) ∧ (name ∈ seen ∨ name ∈ before) := by
  constructor
  · intro h
    induction names generalizing seen with
    | nil => cases h
    | cons first rest ih =>
      rw [firstRepeated?] at h
      split_ifs at h with hseen
      · cases h
        exact ⟨[], rest, rfl, List.nodup_nil, by simp, .inl hseen⟩
      · obtain ⟨before, after, rfl, hnodup, hnew, hname⟩ := ih h
        simp only [List.mem_cons, not_or] at hnew hname
        refine ⟨first :: before, after, rfl, ?_, ?_, ?_⟩
        · exact List.nodup_cons.2 ⟨fun hmem => (hnew first hmem).1 rfl, hnodup⟩
        · intro other hother
          rcases List.mem_cons.1 hother with rfl | hlater
          · exact hseen
          · exact (hnew other hlater).2
        · rw [List.mem_cons]
          tauto
  · rintro ⟨before, after, rfl, hnodup, hnew, hname⟩
    induction before generalizing seen with
    | nil =>
      rw [List.nil_append, firstRepeated?, if_pos (by simpa using hname)]
    | cons first rest ih =>
      obtain ⟨hfirst, hrest⟩ := List.nodup_cons.1 hnodup
      rw [List.cons_append, firstRepeated?, if_neg (hnew first List.mem_cons_self)]
      apply ih hrest
      · intro other hother
        rw [List.mem_cons, not_or]
        refine ⟨?_, hnew other (List.mem_cons_of_mem _ hother)⟩
        rintro rfl
        exact hfirst hother
      · rw [List.mem_cons] at hname ⊢
        tauto

theorem ModelDecl.firstRepeated?_types_iff {decl : ModelDecl} {name : String} :
    firstRepeated? [] (decl.types.map (·.name)) = some name ↔ ∃ before type after,
      decl.types = before ++ type :: after ∧ (before.map (·.name)).Nodup ∧
        type.name ∈ before.map (·.name) ∧ type.name = name := by
  rw [firstRepeated?_eq_some_iff]
  constructor
  · rintro ⟨names, others, hsplit, hnodup, -, hname⟩
    obtain ⟨before, rest, htypes, rfl, hrest⟩ := List.map_eq_append_iff.1 hsplit
    obtain ⟨type, after, rfl, rfl, rfl⟩ := List.map_eq_cons_iff.1 hrest
    exact ⟨before, type, after, htypes, hnodup, by simpa using hname, rfl⟩
  · rintro ⟨before, type, after, htypes, hnodup, hname, rfl⟩
    refine ⟨before.map (·.name), after.map (·.name), ?_, hnodup, by simp, .inr hname⟩
    rw [htypes, List.map_append, List.map_cons]

namespace Model

variable {decl : ModelDecl} {e : ModelError}

/-- A rejection for a repeated name comes before everything else. -/
theorem resolve_of_repeated {name : String}
    (h : firstRepeated? [] (decl.types.map (·.name)) = some name) :
    Model.resolve decl = .error (.duplicateType name) := by
  simp only [resolve, h]
  rfl

theorem resolve_of_nodup (hnames : (decl.types.map (·.name)).Nodup) :
    Model.resolve decl = do
      let types ← decl.types.zipIdx.mapM fun (type, id) => decl.resolveObject id type
      return { types } := by
  have hnone : firstRepeated? [] (decl.types.map (·.name)) = none :=
    firstRepeated?_eq_none_iff.2 ⟨hnames, by simp⟩
  simp only [resolve, hnone]

/-- The position of a type decides nothing about whether it is accepted. -/
theorem exists_resolve_of_allowed (h : decl.WellFormed) :
    ∃ model, Model.resolve decl = .ok model := by
  rw [resolve_of_nodup h.names]
  refine Results.exists_bind_ok (Results.exists_mapM_ok ?_) fun types => ⟨_, rfl⟩
  rintro ⟨type, id⟩ hentry
  have htype := h.types type (List.fst_mem_of_mem_zipIdx hentry)
  exact (ModelDecl.exists_resolveObject_iff h.names).2 htype

theorem resolve_eq_error_of_nodup (hnames : (decl.types.map (·.name)).Nodup) :
    Model.resolve decl = .error e ↔ ∃ before type after, decl.types = before ++ type :: after ∧
      (∀ other ∈ before, decl.TypeAllowed other) ∧ decl.FirstOfType type e := by
  have hdone : ∀ types : List ObjectType,
      (pure { types } : Except ModelError Model) ≠ .error e := by
    intro types h
    cases h
  rw [resolve_of_nodup hnames, Results.bind_eq_error_iff, Results.mapM_eq_error_iff]
  simp only [hdone, and_false, exists_false, or_false]
  constructor
  · rintro ⟨before, ⟨type, id⟩, after, hsplit, hbefore, htype⟩
    refine ⟨before.map Prod.fst, type, after.map Prod.fst, ?_, ?_, ?_⟩
    · have hmap := congrArg (List.map Prod.fst) hsplit
      simpa using hmap
    · intro other hother
      obtain ⟨entry, hentry, rfl⟩ := List.mem_map.1 hother
      exact (ModelDecl.exists_resolveObject_iff hnames).1 (hbefore entry hentry)
    · exact (ModelDecl.resolveObject_eq_error_iff hnames).1 htype
  · rintro ⟨before, type, after, hsplit, hbefore, htype⟩
    refine ⟨before.zipIdx, (type, before.length), after.zipIdx (before.length + 1), ?_, ?_, ?_⟩
    · rw [hsplit, List.zipIdx_append, List.zipIdx_cons, Nat.zero_add]
    · rintro ⟨other, id⟩ hentry
      have hallowed := hbefore other (List.fst_mem_of_mem_zipIdx hentry)
      exact (ModelDecl.exists_resolveObject_iff hnames).2 hallowed
    · exact (ModelDecl.resolveObject_eq_error_iff hnames).2 htype

theorem wellFormed_of_resolve {model : Model} (h : Model.resolve decl = .ok model) :
    decl.WellFormed := by
  have hnames : (decl.types.map (·.name)).Nodup := by
    by_contra hrepeated
    cases hfirst : firstRepeated? [] (decl.types.map (·.name)) with
    | none => exact hrepeated (firstRepeated?_eq_none_iff.1 hfirst).1
    | some name =>
      rw [resolve_of_repeated hfirst] at h
      cases h
  refine ⟨hnames, fun type htype => ?_⟩
  obtain ⟨id, hid⟩ := List.mem_iff_getElem?.1 htype
  have hentry : (type, id) ∈ decl.types.zipIdx := List.mk_mem_zipIdx_iff_getElem?.2 hid
  obtain ⟨object, -, hobject⟩ := Results.exists_of_mem_left (types_of_resolve h) hentry
  exact (ModelDecl.exists_resolveObject_iff hnames).1 ⟨object, hobject⟩

theorem resolve_eq_error_iff : Model.resolve decl = .error e ↔ decl.FirstViolation e := by
  cases hfirst : firstRepeated? [] (decl.types.map (·.name)) with
  | some name =>
    obtain ⟨before, type, after, hsplit, hbefore, hname, rfl⟩ :=
      ModelDecl.firstRepeated?_types_iff.1 hfirst
    rw [resolve_of_repeated hfirst, Except.error.injEq]
    constructor
    · rintro rfl
      exact .repeatedType hsplit hbefore hname
    · intro h
      cases h with
      | repeatedType hsplit' hbefore' hname' =>
        have hsecond :=
          ModelDecl.firstRepeated?_types_iff.2 ⟨_, _, _, hsplit', hbefore', hname', rfl⟩
        rw [hfirst, Option.some.injEq] at hsecond
        rw [hsecond]
      | inType hnames =>
        have hnone := firstRepeated?_eq_none_iff.2 ⟨hnames, fun _ _ => List.not_mem_nil⟩
        rw [hfirst] at hnone
        cases hnone
  | none =>
    have hnames := (firstRepeated?_eq_none_iff.1 hfirst).1
    rw [resolve_eq_error_of_nodup hnames]
    constructor
    · rintro ⟨before, type, after, hsplit, hbefore, htype⟩
      exact .inType hnames hsplit hbefore htype
    · intro h
      cases h with
      | repeatedType hsplit hbefore hname =>
        have hsome := ModelDecl.firstRepeated?_types_iff.2 ⟨_, _, _, hsplit, hbefore, hname, rfl⟩
        rw [hfirst] at hsome
        cases hsome
      | inType _ hsplit hbefore htype => exact ⟨_, _, _, hsplit, hbefore, htype⟩

/-- A declaration is accepted if it keeps the rules, and is otherwise rejected with its first
violation. -/
theorem resolve_follows_rules (decl : ModelDecl) :
    ((∃ model, Model.resolve decl = .ok model) ↔ decl.WellFormed) ∧
      (∀ e, Model.resolve decl = .error e ↔ decl.FirstViolation e) ∧
      (¬ decl.WellFormed → ∃ e, decl.FirstViolation e ∧
        ∀ other, decl.FirstViolation other → other = e) := by
  have haccepted : (∃ model, Model.resolve decl = .ok model) ↔ decl.WellFormed :=
    ⟨fun ⟨_, h⟩ => wellFormed_of_resolve h, exists_resolve_of_allowed⟩
  refine ⟨haccepted, fun e => resolve_eq_error_iff, fun hbad => ?_⟩
  cases hresolve : Model.resolve decl with
  | ok model => exact absurd (haccepted.1 ⟨model, hresolve⟩) hbad
  | error e =>
    refine ⟨e, resolve_eq_error_iff.1 hresolve, fun other hother => ?_⟩
    rw [← resolve_eq_error_iff, hresolve, Except.error.injEq] at hother
    exact hother.symm

/-- The field is looked at in front of the sort order, and its list flag in front of its link. -/
example : Model.resolve
    { types :=
        [{ name := "Order", kind := .rootEntity, primarySort := [{ field := "total" }],
           fields := [{ name := "item", typeName := "Item", relation := true }] },
         { name := "Item", kind := .childEntity }] } =
    .error (.nonListChildEntityField "Order" "item") := by
  rfl

end Model

end EntitySchema
