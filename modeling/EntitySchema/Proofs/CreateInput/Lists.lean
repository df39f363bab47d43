import EntitySchema.Proofs.CreateInput.Contents

/-! # Lists in a prepared object

A list field stores an array, also where it is given null. Only lists of embedded objects are looked
into, so what a list of scalars, of members of an enum or of keys is given is stored as it is, be it
an array or not. -/
namespace EntitySchema

variable {decl : ModelDecl} {model : Model} {creation : Creation} {type : ObjectType}
  {field : Field} {value result : Json} {id typeId : TypeId}
  {payload prepared built : Json.Object} {path : List PathStep}

/-- Every object at any depth of a document holds arrays in its list fields. -/
def Model.StoresLists (model : Model) (id : TypeId) (prepared : Json.Object) : Prop :=
  ∀ path typeId built, Holds model Field.propertyIn? id prepared path typeId built →
    ∀ type, model.type? typeId = some type → ∀ field ∈ type.fields, field.list = true →
      ∀ result, field.propertyIn? built = some result → ∃ items, result = .array items

/-- Null stands for no items whatever the items are, and anything else but an array is refused
where the items are objects. -/
theorem Field.Becomes.of_list (hlist : field.list = true)
    (h : field.Becomes model creation value result) :
    (∃ items, result = .array items) ∨ field.Plain ∧ result = value ∧ value ≠ .null := by
  cases h with
  | kept hplain hvalue => exact .inr ⟨hplain, rfl, hvalue hlist⟩
  | noItems => exact .inl ⟨[], rfl⟩
  | noObject _ hsingle | object _ hsingle =>
    rw [hsingle] at hlist
    cases hlist
  | items => exact .inl ⟨_, rfl⟩

/-- A list field stores an array at any depth. Anything else is stored only where it is given to a
list whose items are not looked into, and never null. -/
theorem Model.lists_of_prepared (hresolve : Model.resolve decl = .ok model)
    (h : model.prepare creation id payload = .ok prepared)
    (hholds : Holds model Field.propertyIn? id prepared path typeId built)
    (htype : model.type? typeId = some type) (hfield : field ∈ type.fields)
    (hlist : field.list = true) (hresult : field.propertyIn? built = some result) :
    (∃ items, result = .array items) ∨ field.Plain ∧ result ≠ .null ∧
      ∃ object, Holds model Field.valueIn? id payload path typeId object ∧
        field.valueIn? object = some result := by
  obtain ⟨object, hheld, hbuilt⟩ := Model.held_of_prepared hresolve h hholds
  obtain ⟨hfrom, _, hresolved⟩ := Model.preparedFrom_of_type hresolve hbuilt htype
  have hsystem := hresolved.system_of_list hfield hlist
  obtain ⟨value, hvalue, hbecomes⟩ := hfrom.becomes_of_property hresolved hfield hsystem hresult
  rcases hbecomes.of_list hlist with harray | ⟨hplain, rfl, hnull⟩
  · exact .inl harray
  · exact .inr ⟨hplain, hnull, object, hheld, hvalue⟩

/-- An item of an order holds an empty list of the parts that it is given as null. -/
theorem parts_of_item_are_a_list :
    let decl : ModelDecl :=
      { types :=
        [{ name := "Order", kind := .rootEntity,
           fields := [{ name := "items", typeName := "Item", list := true }] },
         { name := "Item", kind := .valueObject,
           fields := [{ name := "parts", typeName := "Part", list := true }] },
         { name := "Part", kind := .valueObject }] }
    let order : Json.Object := [("items", .array [.object [("parts", .null)]])]
    let creation : Creation := ⟨⟨0, 0⟩, fun _ => "fresh"⟩
    ∃ model, Model.resolve decl = .ok model ∧ ∃ prepared built : Json.Object,
      model.prepare creation 0 order = .ok prepared ∧
      Holds model Field.propertyIn? 0 prepared [.item 0, .field "items"] 1 built ∧
      ∃ parts, built.get? "parts" = some (.array parts) := by
  intro decl order creation
  obtain ⟨model, hresolve, prepared, hprepared, root, hroot, items, hitems, hname, hembeds, hlist,
      type, htype, parts, hparts, hpartsName, hpartsEmbed, hpartsList, built, hvalue, result,
      hresult⟩ :
      ∃ model, Model.resolve decl = .ok model ∧
        ∃ prepared, model.prepare ⟨⟨0, 0⟩, fun _ => "fresh"⟩ 0 order = .ok prepared ∧
        ∃ root, model.type? 0 = some root ∧
        ∃ items ∈ root.fields, items.name = "items" ∧ items.Embeds 1 ∧ items.list = true ∧
        ∃ type, model.type? 1 = some type ∧
        ∃ parts ∈ type.fields, parts.name = "parts" ∧ parts.Embeds 2 ∧ parts.list = true ∧
        ∃ built, items.propertyIn? prepared = some (.array [.object built]) ∧
        ∃ result, parts.propertyIn? built = some result :=
    ⟨_, rfl, _, rfl, _, rfl, _, List.mem_of_getElem? (i := 3) rfl, rfl, ⟨rfl, rfl, rfl⟩, rfl,
      _, rfl, _, List.mem_of_getElem? (i := 0) rfl, rfl, ⟨rfl, rfl, rfl⟩, rfl, _, rfl, _, rfl⟩
  have hholds : Holds model Field.propertyIn? 0 prepared [.item 0, .field "items"] 1 built := by
    rw [← hname]
    exact .item .root hroot hitems hembeds hlist hvalue rfl
  rcases Model.lists_of_prepared hresolve hprepared hholds htype hparts hpartsList hresult with
    ⟨values, rfl⟩ | ⟨hplain, -⟩
  · rw [Field.propertyIn?, hpartsName] at hresult
    exact ⟨model, hresolve, prepared, built, hprepared, hholds, values, hresult⟩
  · exact absurd hplain hpartsEmbed.not_plain

/-- The tags of an order are stored as the one text that they are given as. -/
theorem tags_of_order_are_a_text :
    let decl : ModelDecl :=
      { types :=
        [{ name := "Order", kind := .rootEntity,
           fields := [{ name := "tags", typeName := "String", list := true }] }] }
    let order : Json.Object := [("tags", .string "new")]
    let creation : Creation := ⟨⟨0, 0⟩, fun _ => "fresh"⟩
    ∃ model, Model.resolve decl = .ok model ∧ ∃ prepared : Json.Object,
      model.prepare creation 0 order = .ok prepared ∧
      prepared.get? "tags" = some (.string "new") ∧ ¬ model.StoresLists 0 prepared := by
  intro decl order creation
  obtain ⟨model, hresolve, prepared, hprepared, root, hroot, tags, htags, hname, hlist, hresult⟩ :
      ∃ model, Model.resolve decl = .ok model ∧
        ∃ prepared, model.prepare ⟨⟨0, 0⟩, fun _ => "fresh"⟩ 0 order = .ok prepared ∧
        ∃ root, model.type? 0 = some root ∧
        ∃ tags ∈ root.fields, tags.name = "tags" ∧ tags.list = true ∧
          tags.propertyIn? prepared = some (.string "new") :=
    ⟨_, rfl, _, rfl, _, rfl, _, List.mem_of_getElem? (i := 3) rfl, rfl, rfl, rfl⟩
  have hstored := hresult
  rw [Field.propertyIn?, hname] at hstored
  refine ⟨model, hresolve, prepared, hprepared, hstored, fun hlists => ?_⟩
  obtain ⟨items, hitems⟩ := hlists [] 0 prepared .root root hroot tags htags hlist _ hresult
  cases hitems

end EntitySchema
