import EntitySchema.Proofs.Json.Reading
import EntitySchema.Proofs.Search.Links
import EntitySchema.Search.Store

/-! # The JSON forms of views and migrations

An option that is not set is left out of the written form, and missing it is reading it as not set.
So links, views, snapshots and migrations are read back as they were, with options that are not set,
empty lists and empty maps kept apart, as long as no map has a name twice. -/
namespace EntitySchema.Search

open Json Json.Outline

/-! ### Links -/

theorem StoredValues.ofName?_name (values : StoredValues) : ofName? values.name = some values := by
  cases values <;> rfl

namespace Link

theorem entriesToJson_eq_map (entries : Entries Link) :
    entriesToJson entries = entries.map fun entry => (entry.1, entry.2.toJson) := by
  induction entries with
  | nil => rfl
  | cons entry rest ih => rw [entriesToJson, ih, List.map_cons]

theorem fieldsToJson_eq (fields : Option (Entries Link)) :
    fieldsToJson fields =
      (fields.map fun entries => ("fields", .object (entriesToJson entries))).toList := by
  cases fields <;> rfl

def members (link : Link) : List (String × Json) :=
  (link.analyzers.map fun names => ("analyzers", .array (names.map .string))).toList ++
    fieldsToJson link.fields ++
    (link.includeAllFields.map fun flag => ("includeAllFields", .bool flag)).toList ++
    (link.trackListPositions.map fun flag => ("trackListPositions", .bool flag)).toList ++
    (link.storedValues.map fun values => ("storeValues", .string values.name)).toList

theorem toJson_eq (link : Link) : link.toJson = .object link.members := by
  obtain ⟨analyzers, fields, includeAll, trackPositions, stored⟩ := link
  rw [toJson, members]

theorem keys_members (link : Link) : (Entries.keys link.members).Sublist keys := by
  simp only [members, fieldsToJson_eq, Entries.keys, List.map_append]
  exact ((((keys_optional _ _ _).append (keys_optional _ _ _)).append
    (keys_optional _ _ _)).append (keys_optional _ _ _)).append (keys_optional _ _ _)

theorem mem_members_of_fields {link : Link} {fields : Entries Link}
    (h : link.fields = some fields) :
    ("fields", .object (entriesToJson fields)) ∈ link.members := by
  simp [members, h, fieldsToJson]

/-- Reading the members of a link, given that of its nested links. -/
theorem foldlM_members {style : CaseStyle} {room : Nat}
    {readFields : Outline → Except Fault (Option (Entries Link))} {link : Link}
    (hroom : ∀ member ∈ link.members, member.2.depth ≤ room)
    (hfields : ∀ fields, link.fields = some fields →
      readFields (ofJson (.object (entriesToJson fields))) = .ok (some fields)) :
    link.members.foldlM (readMember (readPart style readFields room)) {} = .ok link := by
  obtain ⟨analyzers, fields, includeAll, trackPositions, stored⟩ := link
  simp only [members, fieldsToJson_eq] at hroom ⊢
  refine Results.foldlM_append_ok (Results.foldlM_append_ok (Results.foldlM_append_ok
    (Results.foldlM_append_ok
      (foldlM_optional (fun analyzers => ⟨analyzers, none, none, none, none⟩) rfl ?_)
      (foldlM_optional (fun fields => ⟨analyzers, fields, none, none, none⟩) rfl ?_))
      (foldlM_optional (fun includeAll => ⟨analyzers, fields, includeAll, none, none⟩) rfl ?_))
      (foldlM_optional (fun positions => ⟨analyzers, fields, includeAll, positions, none⟩) rfl ?_))
      (foldlM_optional (Link.mk analyzers fields includeAll trackPositions) rfl ?_)
  · rintro names rfl
    have hdepth : (Json.array (names.map .string)).depth ≤ room :=
      hroom ("analyzers", _) (by simp)
    have hread := reads_option_of_ne_null
      (reads_list fun name (_ : name ∈ names) => reads_string name) (by simp) room hdepth
    simp only [readPart, hread]
    rfl
  · rintro fields rfl
    simp only [readPart, hfields fields rfl]
    rfl
  · rintro flag rfl
    have hread := reads_option_of_ne_null (reads_bool flag) (by simp) room (Nat.zero_le _)
    simp only [readPart, hread]
    rfl
  · rintro flag rfl
    have hread := reads_option_of_ne_null (reads_bool flag) (by simp) room (Nat.zero_le _)
    simp only [readPart, hread]
    rfl
  · rintro values rfl
    have hread := reads_option_of_ne_null (reads_case style values.ofName?_name) (by simp) room
      (Nat.zero_le _)
    simp only [readPart, hread]
    rfl

/-- Links are read back with all their options, at every depth. -/
theorem reads_toJson (style : CaseStyle) {link : Link} (h : link.Distinct) :
    Reads (read style) link.toJson link := by
  have hread {link : Link} {room : Nat} (hroom : link.toJson.depth ≤ room)
      (hfields : ∀ fields inner, link.fields = some fields →
        (Json.object (entriesToJson fields)).depth ≤ inner →
        readFields style inner (ofJson (.object (entriesToJson fields))) = .ok (some fields)) :
      read style room (ofJson link.toJson) = .ok link := by
    rw [toJson_eq, depth] at hroom
    obtain ⟨room, rfl⟩ : ∃ inner, room = inner + 1 := ⟨room - 1, by omega⟩
    have hmembers : ∀ member ∈ link.members, member.2.depth ≤ room := by
      intro member hmember
      have hdepth := depth_le_depthMembers hmember
      omega
    rw [toJson_eq, read, readRecord_object link.keys_members (by decide)]
    exact foldlM_members hmembers fun fields hsome =>
      hfields fields room hsome (hmembers _ (mem_members_of_fields hsome))
  induction h with
  | leaf hnone =>
    intro room hroom
    refine hread hroom fun fields inner hsome => ?_
    rw [hnone] at hsome
    cases hsome
  | @nested link fields hsome hnames _ ih =>
    intro room hroom
    refine hread hroom fun found inner hfound hdepth => ?_
    obtain rfl : fields = found := Option.some.inj (hsome.symm.trans hfound)
    rw [entriesToJson_eq_map, depth] at hdepth
    obtain ⟨inner, rfl⟩ : ∃ below, inner = below + 1 := ⟨inner - 1, by omega⟩
    have hentries : readMembers (read style inner)
        (ofMembers (fields.map fun entry => (entry.1, entry.2.toJson))) true = .ok fields := by
      refine readMembers_of_reads hnames fun entry hentry => ih entry hentry inner ?_
      have hbelow := depth_le_depthMembers
        (List.mem_map_of_mem (f := fun entry : String × Link => (entry.1, entry.2.toJson)) hentry)
      omega
    rw [entriesToJson_eq_map, ofJson, readFields, hentries]
    rfl

/-- There are no numbers in the written form of a link. -/
theorem regular_toJson {allowed : JsonNumber → Prop} {link : Link} (h : link.Distinct) :
    Regular allowed link.toJson := by
  have hread {link : Link} (hfields : ∀ fields, link.fields = some fields →
      Regular allowed (.object (entriesToJson fields))) : Regular allowed link.toJson := by
    rw [toJson_eq]
    refine .object ((by decide : keys.Nodup).sublist link.keys_members) ?_
    simp only [members, fieldsToJson_eq, List.forall_mem_append]
    exact ⟨⟨⟨⟨.optional fun names _ => .array_map fun name _ => .string name, .optional hfields⟩,
      .optional fun flag _ => .bool flag⟩, .optional fun flag _ => .bool flag⟩,
      .optional fun values _ => .string values.name⟩
  induction h with
  | leaf hnone =>
    refine hread fun fields hsome => ?_
    rw [hnone] at hsome
    cases hsome
  | @nested link fields hsome hnames _ ih =>
    refine hread fun found hfound => ?_
    obtain rfl : fields = found := Option.some.inj (hsome.symm.trans hfound)
    rw [entriesToJson_eq_map]
    exact .object_map hnames ih

end Link

/-! ### Views -/

theorem SortKey.reads_toJson (key : SortKey) : Reads read key.toJson key := by
  refine Reads.bind ⟨some key.field, some key.ascending⟩
    (reads_record (.refl _) (by decide) fun room _ => ?_) rfl
  rfl

namespace ViewProperties

structure Distinct (properties : ViewProperties) : Prop where
  names : (Entries.keys properties.links).Nodup
  links : ∀ entry ∈ properties.links, entry.2.Distinct

def members (properties : ViewProperties) : List (String × Json) :=
  [("links", .object (Link.entriesToJson properties.links)),
    ("primarySort", .array (properties.primarySort.map SortKey.toJson))] ++
  (properties.commitInterval.map fun n => ("commitIntervalMsec", .nat n)).toList ++
  (properties.consolidationInterval.map fun n => ("consolidationIntervalMsec", .nat n)).toList

theorem toJson_eq (properties : ViewProperties) : properties.toJson = .object properties.members :=
  rfl

theorem keys_members (properties : ViewProperties) : (Entries.keys properties.members).Sublist
    ["links", "primarySort", "commitIntervalMsec", "consolidationIntervalMsec"] := by
  simp only [members, Entries.keys, List.map_append]
  exact ((List.Sublist.refl _).append (keys_optional _ _ _)).append (keys_optional _ _ _)

theorem reads_toJson (style : CaseStyle) {properties : ViewProperties}
    (h : properties.Distinct) : Reads (read style) properties.toJson properties := by
  rw [toJson_eq]
  refine reads_record properties.keys_members (by decide) fun room hroom => ?_
  obtain ⟨links, primarySort, commit, consolidation⟩ := properties
  have hlinks := reads_map h.names (fun entry hentry => Link.reads_toJson style (h.links _ hentry))
    room (Link.entriesToJson_eq_map links ▸ hroom ("links", _) (by simp [members]))
  have hsort := reads_list (fun key (_ : key ∈ primarySort) => key.reads_toJson) room
    (hroom ("primarySort", _) (by simp [members]))
  refine Results.foldlM_append_ok (Results.foldlM_append_ok ?_
      (foldlM_optional (fun commit => ⟨links, primarySort, commit, none⟩) rfl ?_))
      (foldlM_optional (ViewProperties.mk links primarySort commit) rfl ?_)
  · simp only [Link.entriesToJson_eq_map, List.foldlM_cons, readMember, readPart, hlinks, hsort]
    rfl
  · rintro msec rfl
    have hread := reads_option_of_ne_null (reads_nat msec) (by simp [Json.nat]) room
      (Nat.zero_le _)
    simp only [readPart, hread]
    rfl
  · rintro msec rfl
    have hread := reads_option_of_ne_null (reads_nat msec) (by simp [Json.nat]) room
      (Nat.zero_le _)
    simp only [readPart, hread]
    rfl

structure Measured (allowed : JsonNumber → Prop) (properties : ViewProperties) : Prop where
  commit : ∀ msec : Nat, properties.commitInterval = some msec → allowed (.int msec)
  consolidation : ∀ msec : Nat, properties.consolidationInterval = some msec → allowed (.int msec)

theorem regular_toJson {allowed : JsonNumber → Prop} {properties : ViewProperties}
    (h : properties.Distinct) (hmeasured : properties.Measured allowed) :
    Regular allowed properties.toJson := by
  rw [toJson_eq]
  refine .object ((by decide : List.Nodup _).sublist properties.keys_members) ?_
  simp only [members, List.forall_mem_append, List.forall_mem_cons]
  refine ⟨⟨⟨?_, .array_map fun key _ => ?_, by simp⟩,
    .optional fun msec hmsec => .number (hmeasured.commit msec hmsec)⟩,
    .optional fun msec hmsec => .number (hmeasured.consolidation msec hmsec)⟩
  · rw [Link.entriesToJson_eq_map]
    exact .object_map h.names fun entry hentry => Link.regular_toJson (h.links entry hentry)
  · exact .object (by simp [Entries.keys]) (by simp [Regular.string, Regular.bool])

end ViewProperties

theorem View.reads_toJson {view : View} (h : view.properties.Distinct) :
    Reads read view.toJson view := by
  refine Reads.bind ⟨some view.name, view.properties⟩
    (reads_record (.refl _) (by decide) fun room hroom => ?_) rfl
  have hproperties := ViewProperties.reads_toJson .strict h room
    (hroom ("properties", view.properties.toJson) (by simp))
  simp only [List.foldlM_cons, readMember, hproperties]
  rfl

theorem View.regular_toJson {allowed : JsonNumber → Prop} {view : View}
    (h : view.properties.Distinct) (hmeasured : view.properties.Measured allowed) :
    Regular allowed view.toJson := by
  refine .object (by simp [Entries.keys]) ?_
  simp only [List.forall_mem_cons]
  exact ⟨.string _, ViewProperties.regular_toJson h hmeasured, by simp⟩

/-- Properties with an empty list, an empty map and options that are not set. -/
def deliveriesProperties : ViewProperties where
  links := [("deliveries",
    { analyzers := some []
      fields := some [("items", { fields := some [], includeAllFields := some false }),
        ("note", { analyzers := some ["text_en"], storedValues := some .nothing })] })]
  primarySort := [⟨"createdAt", false⟩]
  commitInterval := some 0

theorem distinct_deliveriesProperties : deliveriesProperties.Distinct := by
  refine ⟨by decide, fun entry hentry => ?_⟩
  obtain rfl := List.mem_singleton.1 hentry
  refine .nested rfl (by decide) fun field hfield => ?_
  simp only [List.mem_cons, List.not_mem_nil, or_false] at hfield
  rcases hfield with rfl | rfl
  · exact .nested rfl (by decide) (by simp)
  · exact .leaf rfl

/-! ### Snapshots -/

namespace Snapshot

/-- The maps of a snapshot have each name once. Its list of views may repeat a name. -/
structure Distinct (snapshot : Snapshot) : Prop where
  links : ∀ view ∈ snapshot.views, view.properties.Distinct
  collections : (Entries.keys snapshot.collections).Nodup

theorem reads_toJson {snapshot : Snapshot} (h : snapshot.Distinct) :
    Reads read snapshot.toJson snapshot := by
  refine reads_record (.refl _) (by decide) fun room hroom => ?_
  have hread := reads_list (fun view hview => View.reads_toJson (h.links view hview)) room
    (hroom ("views", _) (by simp))
  have hcounts := reads_map h.collections (fun entry _ => reads_nat entry.2) room
    (hroom ("collections", _) (by simp))
  simp only [List.foldlM_cons, readMember, readPart, hread, hcounts]
  rfl

structure Measured (allowed : JsonNumber → Prop) (snapshot : Snapshot) : Prop where
  views : ∀ view ∈ snapshot.views, view.properties.Measured allowed
  collections : ∀ entry ∈ snapshot.collections, allowed (.int entry.2)

theorem regular_toJson {allowed : JsonNumber → Prop} {snapshot : Snapshot} (h : snapshot.Distinct)
    (hmeasured : snapshot.Measured allowed) : Regular allowed snapshot.toJson := by
  refine .object (by simp [Entries.keys]) ?_
  simp only [List.forall_mem_cons]
  exact ⟨.array_map fun view hview =>
      View.regular_toJson (h.links view hview) (hmeasured.views view hview),
    .object_map h.collections fun entry hentry =>
      .number (hmeasured.collections entry hentry), by simp⟩

end Snapshot

end EntitySchema.Search
