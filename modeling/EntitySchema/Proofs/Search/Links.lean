import EntitySchema.Proofs.Entries
import EntitySchema.Search.RequiredView

/-! # The links of a required view

Every map of links that is computed has distinct names, at every depth. Such links equal themselves
under the equality that planning uses, which looks up each name in the other map. -/
namespace EntitySchema.Search

def fieldLink (model : Model) (depth : Nat) (path : List FieldId) (field : Field) : Link :=
  match field.type with
  | .object target =>
    if field.reference then leafLink field
    else { fields := some (links model depth (field.id :: path) target) }
  | _ => leafLink field

theorem links_of_none {model : Model} {id : TypeId} (h : model.type? id = none) (depth : Nat)
    (path : List FieldId) : links model depth path id = [] := by
  rw [links]
  split
  · rfl
  · simp_all

theorem links_of_some {model : Model} {id : TypeId} {type : ObjectType}
    (h : model.type? id = some type) (depth : Nat) (path : List FieldId) :
    links model depth path id =
      Entries.collect ((type.fields.filter (eligible depth path)).map fun field =>
        (linkName model field, fieldLink model depth path field)) := by
  rw [links]
  split
  · simp_all
  · rename_i found hfound
    obtain rfl : found = type := Option.some.inj (hfound.symm.trans h)
    congr 1
    exact List.attach_map_val
      (f := fun field => (linkName model field, fieldLink model depth path field))

namespace Link

inductive Distinct : Link → Prop where
  | leaf {link : Link} (h : link.fields = none) : Distinct link
  | nested {link : Link} {fields : Entries Link} (h : link.fields = some fields)
      (names : (Entries.keys fields).Nodup) (links : ∀ entry ∈ fields, Distinct entry.2) :
      Distinct link

theorem eq_with_fields {link : Link} {fields : Option (Entries Link)} (h : link.fields = fields) :
    link = { link with fields } := by
  cases link
  cases h
  rfl

theorem sameEntries_iff {fields others : Entries Link} :
    sameEntries fields others ↔ ∀ entry ∈ fields,
      ∃ other, Entries.get? others entry.1 = some other ∧ entry.2.same other := by
  induction fields with
  | nil => simp [sameEntries]
  | cons first rest ih =>
    obtain ⟨name, link⟩ := first
    rw [sameEntries, Bool.and_eq_true, List.forall_mem_cons, ih]
    cases h : Entries.get? others name <;> simp

theorem sameFields_iff_paired {fields others : Entries Link} :
    sameFields (some fields) (some others) ↔
      Entries.Paired (fun link other => link.same other) fields others := by
  rw [sameFields, Bool.and_eq_true, decide_eq_true_iff, sameEntries_iff]
  rfl

/-- Entries are found in a map that has them all, each name once. -/
theorem sameEntries_of_subset {fields others : Entries Link}
    (hself : ∀ entry ∈ fields, entry.2.same entry.2) (hsub : ∀ entry ∈ fields, entry ∈ others)
    (hnames : (Entries.keys others).Nodup) : sameEntries fields others :=
  sameEntries_iff.2 fun entry hentry =>
    ⟨entry.2, (Entries.mem_iff_get? hnames).1 (hsub entry hentry), hself entry hentry⟩

theorem sameFields_self {fields : Entries Link} (hnames : (Entries.keys fields).Nodup)
    (hself : ∀ entry ∈ fields, entry.2.same entry.2) :
    sameFields (some fields) (some fields) := by
  simp [sameFields, sameEntries_of_subset hself (fun _ h => h) hnames]

theorem same_of_sameFields {link : Link} (h : sameFields link.fields link.fields) :
    link.same link := by
  obtain ⟨analyzers, fields, includeAll, trackPositions, stored⟩ := link
  simp only at h
  simp [same, h]

theorem same_self {link : Link} (h : link.Distinct) : link.same link := by
  induction h with
  | leaf h => exact same_of_sameFields (by simp [h, sameFields])
  | nested h names _ ih => exact same_of_sameFields (by rw [h]; exact sameFields_self names ih)

end Link

theorem distinct_leafLink (field : Field) : (leafLink field).Distinct := by
  refine .leaf ?_
  simp only [leafLink]
  split <;> rfl

theorem nodup_keys_links (model : Model) (depth : Nat) (path : List FieldId) (id : TypeId) :
    (Entries.keys (links model depth path id)).Nodup := by
  cases h : model.type? id with
  | none => simp [links_of_none h, Entries.keys]
  | some type =>
    rw [links_of_some h]
    exact Entries.nodup_collect _

theorem distinct_links (model : Model) (depth : Nat) (path : List FieldId) (id : TypeId) :
    ∀ entry ∈ links model depth path id, entry.2.Distinct := by
  induction path, id using links.induct model depth with
  | case1 path id hnone => simp [links_of_none hnone]
  | case2 path id type htype ih =>
    intro entry hentry
    rw [links_of_some htype] at hentry
    obtain ⟨field, hfield, rfl⟩ := List.mem_map.1 (Entries.mem_collect hentry)
    simp only [fieldLink]
    split
    · rename_i target _
      split
      · exact distinct_leafLink field
      · exact .nested rfl (nodup_keys_links _ _ _ _) (ih field hfield target)
    · exact distinct_leafLink field

theorem RequiredView.agrees_self (view : RequiredView) (model : Model) (settings : Settings) :
    (view.properties model settings).agrees (view.properties model settings) := by
  have hlink (link : Link) (h : link.Distinct) :
      Link.sameFields (some [(view.collection, link)]) (some [(view.collection, link)]) :=
    Link.sameFields_self (List.nodup_singleton _) fun entry hentry => by
      obtain rfl := List.mem_singleton.1 hentry
      exact Link.same_self h
  simp only [ViewProperties.agrees, ViewProperties.sameLinks, RequiredView.properties,
    decide_true, Bool.and_true]
  exact hlink _ (.nested rfl (nodup_keys_links _ _ _ _) (distinct_links _ _ _ _))

end EntitySchema.Search
