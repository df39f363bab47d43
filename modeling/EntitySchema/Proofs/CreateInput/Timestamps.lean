import EntitySchema.Proofs.CreateInput.Contents
import EntitySchema.Proofs.Instant.TextOrder
import EntitySchema.Proofs.Text.ByteOrder

/-! # The order of stored timestamps

An entity stores the instant of its creation as text, twice, and a store compares texts by their
bytes. Entities of different seconds are in the order of time. Within a second the text of the later
one comes first exactly if the fraction of the earlier one is cut from that of the later one. -/
namespace EntitySchema

def Stamped (object : Json.Object) (text : String) : Prop :=
  object.get? "createdAt" = some (.string text) ∧ object.get? "updatedAt" = some (.string text)

/-- A document that is prepared at an instant is an entity, or has the entity inside. -/
def Model.Creates (model : Model) (now : Instant) (entity : Json.Object) : Prop :=
  ∃ creation id payload prepared path typeId type, creation.now = now ∧
    model.prepare creation id payload = .ok prepared ∧
    Holds model Field.propertyIn? id prepared path typeId entity ∧
    model.type? typeId = some type ∧ (type.kind = .rootEntity ∨ type.kind = .childEntity)

variable {decl : ModelDecl} {model : Model}

theorem Model.exists_stamp (hresolve : Model.resolve decl = .ok model) {now : Instant}
    {entity : Json.Object} (h : model.Creates now entity) :
    ∃ text, now.rfc3339? = some text ∧ Stamped entity text := by
  obtain ⟨creation, id, payload, prepared, path, typeId, type, rfl, hprepared, hholds, htype,
    hkind⟩ := h
  obtain ⟨_, -, hentity⟩ := Model.held_of_prepared hresolve hprepared hholds
  obtain ⟨hfrom, -⟩ := Model.preparedFrom_of_type hresolve hentity htype
  obtain ⟨text, htext, hstamped⟩ := hfrom.times hkind
  exact ⟨text, htext, hstamped⟩

/-- The timestamps of an entity do not come behind those of one that is created later, unless the
instant of its creation is the other one with zeros for some of the last digits of the fraction. -/
theorem Model.stamps_in_byte_order_iff (hresolve : Model.resolve decl = .ok model) {a b : Instant}
    {entity entity' : Json.Object} (hentity : model.Creates a entity)
    (hentity' : model.Creates b entity') (hle : a.le b = true) (hnanos : b.nanos < 10 ^ 9) :
    ∃ text text', Stamped entity text ∧ Stamped entity' text' ∧
      (Text.bytes text ≤ Text.bytes text' ↔ ¬ a.CutFrom b) := by
  obtain ⟨text, htext, hstamped⟩ := Model.exists_stamp hresolve hentity
  obtain ⟨text', htext', hstamped'⟩ := Model.exists_stamp hresolve hentity'
  refine ⟨text, text', hstamped, hstamped', ?_⟩
  rw [← List.not_lt, ← Text.lt_iff_bytes_lt, Instant.text_lt_iff_cutFrom htext htext' hle hnanos]

/-- An item is created 0.15 s after midnight, inside an order, and another order 0.05 s later. -/
theorem stamps_of_item_and_order :
    let decl : ModelDecl :=
      { types :=
        [{ name := "Order", kind := .rootEntity,
           fields := [{ name := "items", typeName := "Item", list := true }] },
         { name := "Item", kind := .childEntity }] }
    ∃ model, Model.resolve decl = .ok model ∧ ∃ item order text text',
      model.Creates ⟨0, 150000000⟩ item ∧ model.Creates ⟨0, 200000000⟩ order ∧
      Stamped item text ∧ Stamped order text' ∧ Text.bytes text ≤ Text.bytes text' := by
  intro decl
  let payload : Json.Object := [("items", .array [.object []])]
  obtain ⟨model, hresolve, item, hitem, order, horder⟩ : ∃ model, Model.resolve decl = .ok model ∧
      ∃ item, model.Creates ⟨0, 150000000⟩ item ∧ ∃ order, model.Creates ⟨0, 200000000⟩ order :=
    ⟨_, rfl, _, ⟨⟨⟨0, 150000000⟩, fun _ => "fresh"⟩, 0, payload, _, _, 1, _, rfl, rfl,
        .item .root rfl (List.mem_of_getElem? (i := 3) rfl) ⟨rfl, rfl, rfl⟩ rfl rfl
          (show (_ : List Json)[0]? = some _ from rfl),
        rfl, .inr rfl⟩,
      _, ⟨⟨⟨0, 200000000⟩, fun _ => "fresh"⟩, 0, [], _, [], 0, _, rfl, rfl, .root, rfl,
        .inl rfl⟩⟩
  have hcut : ¬ Instant.CutFrom ⟨0, 150000000⟩ ⟨0, 200000000⟩ := by
    rintro ⟨-, -, k, hk⟩
    rcases Nat.lt_or_ge k 9 with hlt | hge
    · interval_cases k <;> exact absurd hk (by decide)
    · have hpow : 10 ^ 9 ≤ 10 ^ k := Nat.pow_le_pow_right (by decide) hge
      rw [Instant.cut_of_lt (Nat.lt_of_lt_of_le (by decide) hpow)] at hk
      cases hk
  obtain ⟨text, text', htext, htext', horder'⟩ :=
    Model.stamps_in_byte_order_iff hresolve hitem horder (by decide) (by decide)
  exact ⟨model, hresolve, item, order, text, text', hitem, horder, htext, htext',
    horder'.2 hcut⟩

/-- The timestamps of an order that is created 0.1 s after midnight come behind those of an order
that is created 0.05 s later. -/
theorem later_order_has_the_lesser_stamp :
    let decl : ModelDecl := { types := [{ name := "Order", kind := .rootEntity }] }
    ∃ model, Model.resolve decl = .ok model ∧ ∃ order order' text text',
      model.Creates ⟨0, 100000000⟩ order ∧ model.Creates ⟨0, 150000000⟩ order' ∧
      Instant.le ⟨0, 100000000⟩ ⟨0, 150000000⟩ = true ∧ Stamped order text ∧
      Stamped order' text' ∧ ¬ Text.bytes text ≤ Text.bytes text' := by
  intro decl
  refine ⟨_, rfl, _, _, "1970-01-01T00:00:00.1Z", "1970-01-01T00:00:00.15Z",
    ⟨⟨⟨0, 100000000⟩, fun _ => ""⟩, 0, [], _, [], 0, _, rfl, rfl, .root, rfl, .inl rfl⟩,
    ⟨⟨⟨0, 150000000⟩, fun _ => ""⟩, 0, [], _, [], 0, _, rfl, rfl, .root, rfl, .inl rfl⟩,
    by decide, ⟨rfl, rfl⟩, ⟨rfl, rfl⟩, ?_⟩
  rw [List.not_le, ← Text.lt_iff_bytes_lt]
  decide

end EntitySchema
