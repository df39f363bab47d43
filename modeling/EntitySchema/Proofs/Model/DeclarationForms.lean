import EntitySchema.Model.DeclarationJson
import EntitySchema.Model.Resolve
import EntitySchema.Proofs.Json.Reading

/-! # The JSON forms of model declarations

A default that is absent is left out of the written form, one of null is written; an absent plural
and an absent language are written as null. Main statement: a declaration is read back as it was, so
that it resolves to the same model or to the same error. -/
namespace EntitySchema

open Json Json.Outline

theorem TypeKind.ofName?_name (kind : TypeKind) : ofName? kind.name = some kind := by
  cases kind <;> rfl

theorem SortDirection.ofName?_name (direction : SortDirection) :
    ofName? direction.name = some direction := by
  cases direction <;> rfl

theorem SearchLanguage.ofName?_name (language : SearchLanguage) :
    ofName? language.name = some language := by
  cases language <;> rfl

theorem SortClause.reads_toJson (clause : SortClause) : Reads read clause.toJson clause := by
  refine Reads.bind ⟨some clause.field, clause.direction⟩
    (reads_record (.refl _) (by decide) fun room _ => ?_) rfl
  have hdirection := reads_case .strict clause.direction.ofName?_name room (Nat.zero_le _)
  simp only [List.foldlM_cons, readMember, hdirection]
  rfl

namespace FieldDecl

/-- The default has no repeated names, as no value in memory has. -/
def Distinct (field : FieldDecl) : Prop :=
  ∀ value, field.default = some value → Json.Distinct value

def members (field : FieldDecl) : List (String × Json) :=
  [("name", .string field.name), ("type", .string field.typeName), ("list", .bool field.list),
    ("relation", .bool field.relation), ("reference", .bool field.reference)] ++
  (field.default.map fun value => ("defaultValue", value)).toList ++
  [("flexSearch", .bool field.indexed), ("flexSearchFulltext", .bool field.fulltext),
    ("flexSearchCaseSensitive", .bool field.caseSensitive),
    ("flexSearchLanguage", (field.language.map fun l => .string l.name).getD .null)]

theorem toJson_eq (field : FieldDecl) : field.toJson = .object field.members := rfl

theorem keys_members (field : FieldDecl) : (Entries.keys field.members).Sublist keys := by
  simp only [members, Entries.keys, List.map_append]
  exact ((List.Sublist.refl _).append (keys_optional "defaultValue" id _)).append (.refl _)

theorem reads_toJson {field : FieldDecl} (h : field.Distinct) : Reads read field.toJson field := by
  rw [toJson_eq]
  refine Reads.bind
    ⟨some field.name, some field.typeName, { field with name := "", typeName := "" }⟩
    (reads_record field.keys_members (by decide) fun room hroom => ?_) rfl
  -- what has been read behind the default
  let draft (default : Option Json) : Draft :=
    ⟨some field.name, some field.typeName,
      { name := "", typeName := "", list := field.list, relation := field.relation,
        reference := field.reference, default }⟩
  have hdefault : (field.default.map fun value => ("defaultValue", value)).toList.foldlM
      (readMember (readPart room)) (draft none) = .ok (draft field.default) := by
    refine foldlM_optional draft rfl fun value hvalue => ?_
    have hread := reads_json (h value hvalue) room
      (hroom ("defaultValue", value) (by simp [members, hvalue]))
    simp only [readPart, hread]
    rfl
  have hlanguage : readOption (readCase .strict SearchLanguage.ofName?) room
      (ofJson ((field.language.map fun l => .string l.name).getD .null)) = .ok field.language := by
    refine reads_option (fun l _ => reads_case .strict l.ofName?_name) (by simp) room ?_
    cases field.language <;> exact Nat.zero_le _
  refine Results.foldlM_append_ok (Results.foldlM_append_ok rfl hdefault) ?_
  simp only [List.foldlM_cons, readMember, readPart, hlanguage]
  rfl

end FieldDecl

namespace TypeDecl

def Distinct (type : TypeDecl) : Prop := ∀ field ∈ type.fields, field.Distinct

theorem reads_toJson {type : TypeDecl} (h : type.Distinct) : Reads read type.toJson type := by
  refine Reads.bind ⟨some type.name, some type.kind, { type with name := "", kind := .object }⟩
    (reads_record (.refl _) (by decide) fun room hroom => ?_) rfl
  have hkind := reads_case .strict type.kind.ofName?_name room (Nat.zero_le _)
  have hfields := reads_list (fun field hfield => FieldDecl.reads_toJson (h field hfield)) room
    (hroom ("fields", _) (by simp))
  have hplural : readOption (fun _ => readString) room
      (ofJson ((type.plural.map .string).getD .null)) = .ok type.plural := by
    refine reads_option (fun name _ => reads_string name) (by simp) room ?_
    cases type.plural <;> exact Nat.zero_le _
  have hsort := reads_list (fun clause (_ : clause ∈ type.primarySort) => clause.reads_toJson) room
    (hroom ("flexSearchPrimarySort", _) (by simp))
  simp only [List.foldlM_cons, readMember, readPart, hkind, hfields, hplural, hsort]
  rfl

end TypeDecl

namespace ModelDecl

def Distinct (decl : ModelDecl) : Prop := ∀ type ∈ decl.types, type.Distinct

theorem reads_toJson {decl : ModelDecl} (h : decl.Distinct) : Reads read decl.toJson decl := by
  refine reads_record (.refl _) (by decide) fun room hroom => ?_
  have htypes := reads_list (fun type htype => TypeDecl.reads_toJson (h type htype)) room
    (hroom ("types", _) (by simp))
  have henums := reads_list (fun name (_ : name ∈ decl.enums) => reads_string name) room
    (hroom ("enums", _) (by simp))
  simp only [List.foldlM_cons, readMember, readPart, htypes, henums]
  rfl

/-- A declaration is read back as it was, and no other has the same written form. So it resolves to
the same model, or to the same error, as before. -/
theorem recovered_from_declaration {decl : ModelDecl} (h : decl.Distinct) :
    Json.readValue read decl.toJson = .ok decl ∧
      (Json.readValue read decl.toJson).map Model.resolve = .ok (Model.resolve decl) ∧
      ∀ other : ModelDecl, other.Distinct → other.toJson = decl.toJson → other = decl := by
  have hread := (reads_toJson h).readValue_eq
  refine ⟨hread, by rw [hread, Except.map], fun other hother hform => ?_⟩
  have hother' := reads_toJson hother
  rw [hform] at hother'
  exact hother'.unique (reads_toJson h)

def ordersDecl : ModelDecl where
  types :=
    [{ name := "Order"
       kind := .rootEntity
       fields :=
        [{ name := "note", typeName := "String", language := some .en },
          { name := "tag", typeName := "String", default := some .null, indexed := true },
          { name := "extra", typeName := "JSON",
            default := some (.object [("sizes", .array [.nat 1]), ("name", .null)]) }]
       searchIndexed := true
       primarySort := [{ field := "tag", direction := .descending }, { field := "note" }] }]
  enums := ["Color", "Size"]

theorem recovered_declaration_of_orders :
    ordersDecl.Distinct ∧ Json.readValue read ordersDecl.toJson = .ok ordersDecl ∧
      (Json.readValue read ordersDecl.toJson).map Model.resolve =
        .ok (Model.resolve ordersDecl) := by
  have hdistinct : ordersDecl.Distinct := by
    intro type htype field hfield value hvalue
    obtain rfl := List.mem_singleton.1 htype
    simp only [List.mem_cons, List.not_mem_nil, or_false] at hfield
    rcases hfield with rfl | rfl | rfl
    · cases hvalue
    · cases hvalue
      exact .null
    · cases hvalue
      refine .object (by decide) ?_
      simp only [List.forall_mem_cons]
      exact ⟨.array (by simpa using .number trivial), .null, by simp⟩
  obtain ⟨hread, hresolve, _⟩ := recovered_from_declaration hdistinct
  exact ⟨hdistinct, hread, hresolve⟩

end ModelDecl

end EntitySchema
