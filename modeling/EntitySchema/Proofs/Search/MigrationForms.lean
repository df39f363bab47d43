import EntitySchema.Proofs.Json.Unordered
import EntitySchema.Proofs.Search.JsonForms
import EntitySchema.Proofs.Search.Probing

/-! # The JSON forms of migrations

A migration is written as the members of its payload behind a tag, and read by taking the tag out
of the members first. Main statement: a migration is read back as it was, and two migrations of the
same written form are the same, whether the order of members counts or not. -/
namespace EntitySchema.Search

open Json Json.Outline

/-! ### Reading a migration back -/

theorem ViewChange.distinct_members {change : ViewChange} (h : change.properties.Distinct) :
    ∀ member ∈ change.members, Json.Distinct member.2 := by
  simp only [members, List.forall_mem_cons]
  exact ⟨.string _, .string _, .number trivial,
    ViewProperties.regular_toJson h ⟨by simp, by simp⟩, by simp⟩

theorem ViewChange.reads_members {change : ViewChange} (h : change.properties.Distinct) :
    Reads read (.object change.members) change := by
  refine Reads.bind ⟨some change.view, some change.collection, some change.documents,
    some change.properties⟩ (reads_record (.refl _) (by decide) fun room hroom => ?_) rfl
  have hproperties := ViewProperties.reads_toJson .lenient h room
    (hroom ("properties", change.properties.toJson) (by simp [members]))
  have hdocuments := reads_nat change.documents room (Nat.zero_le _)
  simp only [members, List.foldlM_cons, readMember, hdocuments, hproperties]
  rfl

namespace Migration

theorem readTag_name (tag : Tag) : readTag (ofJson (.string tag.name)) = .ok tag := by
  cases tag <;> rfl

def tag : Migration → Tag
  | .create _ => .create
  | .drop _ => .drop
  | .update _ => .update
  | .recreate _ => .recreate

def members : Migration → List (String × Json)
  | .create change | .update change | .recreate change => change.members
  | .drop view => [("viewName", .string view)]

theorem toJson_eq (migration : Migration) :
    migration.toJson = .object (("type", .string migration.tag.name) :: migration.members) := by
  cases migration <;> rfl

/-- Without a tag among them, members are all handed on. -/
theorem splitTag_ofMembers {room : Nat} {tag : Option Tag} {members : List (String × Json)}
    (htag : "type" ∉ Entries.keys members) (hdistinct : ∀ member ∈ members, Json.Distinct member.2)
    (hroom : ∀ member ∈ members, member.2.depth ≤ room) :
    splitTag room tag (ofMembers members) = .ok (tag, ofMembers members) := by
  induction members with
  | nil => rfl
  | cons first rest ih =>
    obtain ⟨key, value⟩ := first
    have hkey : key ≠ "type" := fun heq => htag (heq ▸ List.mem_cons_self)
    have hvalue := reads_json (hdistinct _ List.mem_cons_self) room (hroom _ List.mem_cons_self)
    have hrest := ih (fun hmem => htag (List.mem_cons_of_mem _ hmem))
      (fun member hmember => hdistinct _ (List.mem_cons_of_mem _ hmember))
      (fun member hmember => hroom _ (List.mem_cons_of_mem _ hmember))
    rw [ofMembers, splitTag, if_neg hkey, hvalue, hrest]
    rfl

def Distinct (migration : Migration) : Prop :=
  ∀ change, migration.change? = some change → change.properties.Distinct

theorem reads_body {migration : Migration} (h : migration.Distinct) :
    Reads (readBody migration.tag) (.object migration.members) migration := by
  intro room hroom
  have hchange (change : ViewChange) (hchange : migration.change? = some change)
      (hmembers : migration.members = change.members) :
      ViewChange.read room (ofJson (.object migration.members)) = .ok change := by
    rw [hmembers] at hroom ⊢
    exact ViewChange.reads_members (h _ hchange) room hroom
  cases migration with
  | create change | update change | recreate change =>
    rw [tag, readBody, hchange change rfl rfl]
    rfl
  | drop view =>
    have hview : Reads readDrop (.object [("viewName", .string view)]) view :=
      Reads.bind (some view) (reads_record (.refl _) (by decide) fun _ _ => rfl) rfl
    rw [tag, readBody, members, hview room hroom]
    rfl

theorem reads_toJson {migration : Migration} (h : migration.Distinct) :
    Reads read migration.toJson migration := by
  have hdistinct : ∀ member ∈ migration.members, Json.Distinct member.2 := by
    cases migration with
    | create change | update change | recreate change =>
      exact ViewChange.distinct_members (h _ rfl)
    | drop view => simp [members, Regular.string]
  have htag : "type" ∉ Entries.keys migration.members := by
    cases migration <;> simp [members, ViewChange.members, Entries.keys]
  intro room hroom
  rw [toJson_eq, depth] at hroom
  obtain ⟨room, rfl⟩ : ∃ inner, room = inner + 1 := ⟨room - 1, by omega⟩
  have hdepth : depthMembers migration.members ≤ room := by
    rw [depthMembers] at hroom
    omega
  have hmembers : ∀ member ∈ migration.members, member.2.depth ≤ room := fun member hmember =>
    Nat.le_trans (depth_le_depthMembers hmember) hdepth
  have hsplit : splitTag room none
      (ofMembers (("type", .string migration.tag.name) :: migration.members)) =
      .ok (some migration.tag, ofMembers migration.members) := by
    rw [ofMembers, splitTag, if_pos rfl, if_neg (by simp), readTag_name]
    exact splitTag_ofMembers htag hdistinct hmembers
  have hbody := reads_body h (room + 1) (Nat.succ_le_succ hdepth)
  rw [ofJson] at hbody
  rw [toJson_eq, ofJson, read, hsplit]
  simp only [bind, Except.bind, hbody]
  rfl

end Migration

/-! ### Migrations of the same form -/

namespace Link

/-- Maps of links have the same written form if they are the same, given that of their links. -/
theorem same_entriesToJson_iff {fields others : Entries Link}
    (h : ∀ entry ∈ fields, ∀ other, entry.2.toJson.same (toJson other) ↔ entry.2.same other) :
    (Json.object (entriesToJson fields)).same (.object (entriesToJson others)) ↔
      sameFields (some fields) (some others) := by
  rw [same_object_iff, entriesToJson_eq_map, entriesToJson_eq_map,
    Entries.paired_map_iff (R := fun link other => link.same other) h, sameFields_iff_paired]

def parts (link : Link) : Entries (Option Json) :=
  [("analyzers", link.analyzers.map fun names => .array (names.map .string)),
    ("fields", link.fields.map fun fields => .object (entriesToJson fields)),
    ("includeAllFields", link.includeAllFields.map .bool),
    ("trackListPositions", link.trackListPositions.map .bool),
    ("storeValues", link.storedValues.map fun values => .string values.name)]

theorem members_eq_present (link : Link) : link.members = present link.parts := by
  simp [members, parts, fieldsToJson_eq, Option.map_map, Function.comp_def]

theorem same_toJson_iff {link : Link} (h : link.Distinct) (other : Link) :
    link.toJson.same other.toJson ↔ link.same other := by
  have hstored (values values' : StoredValues) :
      (Json.string values.name).same (.string values'.name) ↔ values = values' := by
    cases values <;> cases values' <;> simp [StoredValues.name]
  have hsame {link : Link} (other : Link) (hfields : Option.Rel (fun a b => a.same b)
        (link.fields.map fun fields => Json.object (entriesToJson fields))
        (other.fields.map fun fields => .object (entriesToJson fields)) ↔
      sameFields link.fields other.fields) :
      link.toJson.same other.toJson ↔ link.same other := by
    rw [toJson_eq, toJson_eq, members_eq_present, members_eq_present,
      same_present_iff (by rfl) (by simp [parts, Entries.keys])]
    obtain ⟨analyzers, fields, includeAll, trackPositions, stored⟩ := link
    simp [parts, same, hfields, same_optional_iff hstored, and_assoc,
      same_optional_iff fun _ _ => same_bool_iff,
      same_optional_iff fun _ _ => same_array_map_iff fun _ _ => same_string_iff]
  induction h generalizing other with
  | leaf hnone =>
    refine hsame other ?_
    rw [hnone]
    cases other.fields <;> simp [sameFields]
  | @nested link fields hsome hnames _ ih =>
    refine hsame other ?_
    rw [hsome]
    cases other.fields with
    | none => simp [sameFields]
    | some others => simpa using same_entriesToJson_iff ih

end Link

theorem SortKey.same_toJson_iff (key other : SortKey) :
    key.toJson.same other.toJson ↔ key = other := by
  obtain ⟨field, ascending⟩ := key
  obtain ⟨field', ascending'⟩ := other
  simp [toJson, same, sameMembers, Entries.get?_cons]

namespace ViewProperties

def parts (properties : ViewProperties) : Entries (Option Json) :=
  [("links", some (.object (Link.entriesToJson properties.links))),
    ("primarySort", some (.array (properties.primarySort.map SortKey.toJson))),
    ("commitIntervalMsec", properties.commitInterval.map .nat),
    ("consolidationIntervalMsec", properties.consolidationInterval.map .nat)]

theorem same_toJson_iff {properties : ViewProperties} (h : properties.Distinct)
    (other : ViewProperties) : properties.toJson.same other.toJson ↔ properties.same other := by
  have hpresent (properties : ViewProperties) :
      properties.toJson = .object (present properties.parts) := by
    simp [toJson_eq, members, parts, Option.map_map, Function.comp_def]
  have hlinks : (Json.object (Link.entriesToJson properties.links)).same
      (.object (Link.entriesToJson other.links)) ↔
      Link.sameFields (some properties.links) (some other.links) :=
    Link.same_entriesToJson_iff fun entry hentry => Link.same_toJson_iff (h.links entry hentry)
  rw [hpresent, hpresent, same_present_iff (by rfl) (by simp [parts, Entries.keys])]
  simp [parts, same, agrees, sameLinks, hlinks, and_assoc,
    same_array_map_iff SortKey.same_toJson_iff, same_optional_iff fun _ _ => same_nat_iff]

end ViewProperties

namespace Migration

def same : Migration → Migration → Bool
  | .create change, .create other | .update change, .update other
  | .recreate change, .recreate other =>
    change.view = other.view && change.collection = other.collection &&
      change.documents = other.documents && change.properties.same other.properties
  | .drop view, .drop other => view = other
  | _, _ => false

def parts (migration : Migration) : Entries (Option Json) :=
  [("type", some (.string migration.tag.name)), ("viewName", some (.string migration.view)),
    ("collectionName", migration.change?.map fun change => .string change.collection),
    ("collectionSize", migration.change?.map fun change => .nat change.documents),
    ("properties", migration.change?.map fun change => change.properties.toJson)]

theorem same_toJson_iff {migration : Migration} (h : migration.Distinct) (other : Migration) :
    migration.toJson.same other.toJson ↔ migration.same other := by
  have hpresent (migration : Migration) :
      migration.toJson = .object (present migration.parts) := by
    cases migration <;> rfl
  rw [hpresent, hpresent, same_present_iff (by rfl) (by simp [parts, Entries.keys])]
  cases migration with
  | create change | update change | recreate change =>
    have hproperties := ViewProperties.same_toJson_iff (h _ rfl)
    cases other <;> simp [parts, same, tag, Tag.name, view, change?, and_assoc, hproperties]
  | drop name => cases other <;> simp [parts, same, tag, Tag.name, view, change?]

/-- A migration is read back with all its options. So two migrations of one written form are equal,
and where the order of members does not count they are so up to the order of links. -/
theorem recovered_from_form {migration : Migration} (h : migration.Distinct) :
    Json.readValue read migration.toJson = .ok migration ∧
      ∀ other : Migration, other.Distinct →
        (other.toJson = migration.toJson → other = migration) ∧
          (migration.toJson.same other.toJson ↔ migration.same other) := by
  refine ⟨(reads_toJson h).readValue_eq, fun other hother => ⟨fun hform => ?_, ?_⟩⟩
  · have hother' := reads_toJson hother
    rw [hform] at hother'
    exact hother'.unique (reads_toJson h)
  · exact same_toJson_iff h other

def deliveriesChange : ViewChange :=
  ⟨"flex_view_deliveries", "deliveries", 3, deliveriesProperties⟩

theorem recovered_update_of_deliveries :
    (Migration.update deliveriesChange).Distinct ∧ (Migration.recreate deliveriesChange).Distinct ∧
      Json.readValue read (update deliveriesChange).toJson = .ok (update deliveriesChange) ∧
      (recreate deliveriesChange).toJson ≠ (update deliveriesChange).toJson ∧
      ¬ (update deliveriesChange).toJson.same (recreate deliveriesChange).toJson := by
  have hupdate : (Migration.update deliveriesChange).Distinct := by
    rintro change ⟨⟩
    exact distinct_deliveriesProperties
  have hrecreate : (Migration.recreate deliveriesChange).Distinct := by
    rintro change ⟨⟩
    exact distinct_deliveriesProperties
  obtain ⟨hread, hothers⟩ := recovered_from_form hupdate
  obtain ⟨hequal, hsame⟩ := hothers _ hrecreate
  refine ⟨hupdate, hrecreate, hread, fun hform => ?_, fun hform => ?_⟩
  · exact absurd (hequal hform) (by decide)
  · exact absurd (hsame.1 hform) (by decide)

end Migration

end EntitySchema.Search
