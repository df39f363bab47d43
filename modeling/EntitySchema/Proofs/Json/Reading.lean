import EntitySchema.Json.Decode
import EntitySchema.Proofs.Entries
import EntitySchema.Proofs.Results

/-! # Reading values in memory

What a reader makes of a value does not depend on the room that is left beyond the depth of the
value. Lists, maps, options and records are read back if their parts are; a record may leave out the
members that have nothing to say. -/
namespace EntitySchema.Json

open Outline

/-! ### Depths -/

theorem depth_le_depthList {items : List Json} {item : Json} (h : item ∈ items) :
    item.depth ≤ depthList items := by
  induction items with
  | nil => cases h
  | cons first rest ih =>
    rw [depthList]
    rcases List.mem_cons.1 h with rfl | hrest
    · exact Nat.le_max_left _ _
    · exact Nat.le_trans (ih hrest) (Nat.le_max_right _ _)

theorem depth_le_depthMembers {members : Json.Object} {key : String} {value : Json}
    (h : (key, value) ∈ members) : value.depth ≤ depthMembers members := by
  induction members with
  | nil => cases h
  | cons first rest ih =>
    rw [depthMembers]
    rcases List.mem_cons.1 h with rfl | hrest
    · exact Nat.le_max_left _ _
    · exact Nat.le_trans (ih hrest) (Nat.le_max_right _ _)

/-- No object has two members of one name, and all numbers are of some kind, at any depth. -/
inductive Regular (allowed : JsonNumber → Prop) : Json → Prop
  | null : Regular allowed .null
  | bool (value : Bool) : Regular allowed (.bool value)
  | number {value : JsonNumber} (h : allowed value) : Regular allowed (.number value)
  | string (value : String) : Regular allowed (.string value)
  | array {items : List Json} (hitems : ∀ item ∈ items, Regular allowed item) :
      Regular allowed (.array items)
  | object {members : Json.Object} (hnames : (Entries.keys members).Nodup)
      (hvalues : ∀ member ∈ members, Regular allowed member.2) : Regular allowed (.object members)

abbrev Distinct : Json → Prop := Regular fun _ => True

section Regular

variable {α : Type} {allowed : JsonNumber → Prop} {encode : α → Json}

theorem Regular.array_map {items : List α} (h : ∀ item ∈ items, Regular allowed (encode item)) :
    Regular allowed (.array (items.map encode)) := by
  refine .array fun value hvalue => ?_
  obtain ⟨item, hitem, rfl⟩ := List.mem_map.1 hvalue
  exact h item hitem

theorem Regular.object_map {entries : Entries α} (hnames : (Entries.keys entries).Nodup)
    (h : ∀ entry ∈ entries, Regular allowed (encode entry.2)) :
    Regular allowed (.object (entries.map fun entry => (entry.1, encode entry.2))) := by
  refine .object ?_ fun member hmember => ?_
  · rwa [Entries.keys, List.map_map]
  · obtain ⟨entry, hentry, rfl⟩ := List.mem_map.1 hmember
    exact h entry hentry

/-- A member that is left out where there is no value for it. -/
theorem Regular.optional {key : String} {value : Option α}
    (h : ∀ v, value = some v → Regular allowed (encode v)) :
    ∀ member ∈ (value.map fun v => (key, encode v)).toList, Regular allowed member.2 := by
  intro member hmember
  obtain ⟨v, hv, rfl⟩ := Option.map_eq_some_iff.1 (Option.mem_toList.1 hmember)
  exact h v hv

end Regular

namespace Outline

theorem ofItems_eq_map (items : List Json) : ofItems items = items.map ofJson := by
  induction items with
  | nil => rfl
  | cons item rest ih => rw [ofItems, ih, List.map_cons]

theorem ofMembers_eq_map (members : List (String × Json)) :
    ofMembers members = members.map fun member => (some member.1, ofJson member.2) := by
  induction members with
  | nil => rfl
  | cons member rest ih => rw [ofMembers, ih, List.map_cons]

/-! ### Records -/

variable {α : Type}

def readMember (step : α → String → Outline → Except Fault α) (draft : α) (member : String × Json) :
    Except Fault α :=
  step draft member.1 (ofJson member.2)

/-- Members that come at most once each, all under names of the record, are read in turn. -/
theorem foldMembers_ofMembers {names : List String} {step : α → String → Outline → Except Fault α}
    {members : List (String × Json)} (hnames : ∀ member ∈ members, member.1 ∈ names)
    (hnodup : (Entries.keys members).Nodup) {seen : List String}
    (hnew : ∀ member ∈ members, member.1 ∉ seen) (draft : α) :
    foldMembers names step seen draft (ofMembers members) true =
      members.foldlM (readMember step) draft := by
  induction members generalizing seen draft with
  | nil => rfl
  | cons first rest ih =>
    obtain ⟨key, value⟩ := first
    have hkey : key ∈ names := hnames _ List.mem_cons_self
    have hunseen : key ∉ seen := hnew _ List.mem_cons_self
    obtain ⟨hfirst, hothers⟩ := List.nodup_cons.1 hnodup
    rw [ofMembers, foldMembers, if_pos hkey, if_neg hunseen, List.foldlM_cons]
    refine bind_congr fun next => ?_
    apply ih (fun member hmember => hnames _ (List.mem_cons_of_mem _ hmember)) hothers
    intro member hmember hseen
    rcases List.mem_cons.1 hseen with heq | hearlier
    · exact hfirst (List.mem_map.2 ⟨member, hmember, heq⟩)
    · exact hnew _ (List.mem_cons_of_mem _ hmember) hearlier

theorem readRecord_object {names : List String} {start : α}
    {step : Nat → α → String → Outline → Except Fault α} {members : List (String × Json)}
    (hsub : (Entries.keys members).Sublist names) (hnames : names.Nodup) (room : Nat) :
    readRecord names start step (room + 1) (ofJson (.object members)) =
      members.foldlM (readMember (step room)) start := by
  refine foldMembers_ofMembers (fun member hmember => ?_) (hnames.sublist hsub) (by simp) start
  exact hsub.subset (List.mem_map_of_mem hmember)

/-- A member that is left out where there is no value for it. -/
theorem foldlM_optional {β : Type} {step : α → String → Outline → Except Fault α} {key : String}
    {encode : β → Json} {value : Option β} {draft : α} (set : Option β → α)
    (hnone : set none = draft)
    (hsome : ∀ v, value = some v → step draft key (ofJson (encode v)) = .ok (set (some v))) :
    (value.map fun v => (key, encode v)).toList.foldlM (readMember step) draft =
      .ok (set value) := by
  cases value with
  | none => rw [hnone]; rfl
  | some v =>
    rw [Option.map_some, Option.toList_some, List.foldlM_cons]
    exact Results.bind_eq_ok_iff.2 ⟨_, hsome v rfl, rfl⟩

theorem keys_optional {β : Type} (key : String) (encode : β → Json) (value : Option β) :
    (Entries.keys (value.map fun v => (key, encode v)).toList).Sublist [key] := by
  cases value with
  | none => exact List.nil_sublist _
  | some v => exact .refl _

end Outline

/-! ### What a value is read as -/

variable {α : Type}

/-- A reader makes a result of a value, whatever room there is beyond the depth of the value. -/
def Reads (read : Reader α) (value : Json) (result : α) : Prop :=
  ∀ room, value.depth ≤ room → read room (ofJson value) = .ok result

theorem Reads.readValue_eq {read : Reader α} {value : Json} {result : α}
    (h : Reads read value result) : readValue read value = .ok result := by
  rw [readValue, h value.depth (Nat.le_refl _)]
  rfl

/-- No value is read as two results, so what is read back tells written forms apart. -/
theorem Reads.unique {read : Reader α} {value : Json} {result other : α}
    (h : Reads read value result) (h' : Reads read value other) : result = other :=
  Except.ok.inj (h.readValue_eq.symm.trans h'.readValue_eq)

/-- Reading goes on with what has been read. -/
theorem Reads.bind {β : Type} {read : Reader α} {finish : α → Except Fault β} {value : Json}
    {result : β} (draft : α) (h : Reads read value draft) (hfinish : finish draft = .ok result) :
    Reads (fun room o => read room o >>= finish) value result := by
  intro room hroom
  exact Results.bind_eq_ok_iff.2 ⟨draft, h room hroom, hfinish⟩

theorem reads_string (value : String) : Reads (fun _ => readString) (.string value) value :=
  fun _ _ => rfl

theorem reads_bool (value : Bool) : Reads (fun _ => readBool) (.bool value) value :=
  fun _ _ => rfl

theorem reads_nat (value : Nat) : Reads (fun _ => readNat) (.nat value) value := by
  intro _ _
  simp [Json.nat, ofJson, readNat]

theorem reads_option_of_ne_null {read : Reader α} {value : Json} {result : α}
    (h : Reads read value result) (hvalue : value ≠ .null) :
    Reads (readOption read) value (some result) := by
  intro room hroom
  have hread := h room hroom
  cases value with
  | null => exact absurd rfl hvalue
  | bool _ | number _ | string _ | array _ | object _ =>
    simp only [ofJson] at hread
    simp only [ofJson, readOption, hread]
    rfl

/-- An absent value that is written as null. -/
theorem reads_option {read : Reader α} {encode : α → Json} {value : Option α}
    (h : ∀ v, value = some v → Reads read (encode v) v) (hencode : ∀ v, encode v ≠ .null) :
    Reads (readOption read) ((value.map encode).getD .null) value := by
  cases value with
  | none => exact fun _ _ => rfl
  | some v => exact reads_option_of_ne_null (h v rfl) (hencode v)

theorem reads_case (style : CaseStyle) {case? : String → Option α} {name : String} {result : α}
    (h : case? name = some result) : Reads (readCase style case?) (.string name) result := by
  intro room _
  rw [ofJson, readCase, h]
  rfl

theorem reads_list {read : Reader α} {encode : α → Json} {items : List α}
    (h : ∀ item ∈ items, Reads read (encode item) item) :
    Reads (readList read) (.array (items.map encode)) items := by
  intro room hroom
  rw [depth] at hroom
  obtain ⟨room, rfl⟩ : ∃ inner, room = inner + 1 := ⟨room - 1, by omega⟩
  rw [ofJson, readList, ofItems_eq_map, List.map_map, Results.mapM_eq_ok_iff,
    List.forall₂_map_left_iff]
  refine List.forall₂_same.2 fun item hitem => h item hitem room ?_
  have hdepth := depth_le_depthList (List.mem_map_of_mem (f := encode) hitem)
  omega

theorem readMembers_of_reads {read : Outline → Except Fault α} {encode : α → Json}
    {entries : Entries α} (hnames : (Entries.keys entries).Nodup)
    (h : ∀ entry ∈ entries, read (ofJson (encode entry.2)) = .ok entry.2) :
    readMembers read (ofMembers (entries.map fun entry => (entry.1, encode entry.2))) true =
      .ok entries := by
  rw [readMembers, ofMembers_eq_map, List.map_map]
  refine Results.bind_eq_ok_iff.2 ⟨entries, ?_, ?_⟩
  · rw [Results.mapM_eq_ok_iff, List.forall₂_map_left_iff]
    refine List.forall₂_same.2 fun entry hentry => ?_
    simp only [Function.comp_apply, h entry hentry]
    rfl
  · rw [if_pos rfl, Entries.collect_of_nodup hnames]

theorem reads_map {read : Reader α} {encode : α → Json} {entries : Entries α}
    (hnames : (Entries.keys entries).Nodup)
    (h : ∀ entry ∈ entries, Reads read (encode entry.2) entry.2) :
    Reads (readMap read) (.object (entries.map fun entry => (entry.1, encode entry.2)))
      entries := by
  intro room hroom
  rw [depth] at hroom
  obtain ⟨room, rfl⟩ : ∃ inner, room = inner + 1 := ⟨room - 1, by omega⟩
  rw [ofJson, readMap]
  refine readMembers_of_reads hnames fun entry hentry => h entry hentry room ?_
  have hdepth := depth_le_depthMembers
    (List.mem_map_of_mem (f := fun entry : String × α => (entry.1, encode entry.2)) hentry)
  omega

/-- A record is read from the members that are there, each with one level less of room. -/
theorem reads_record {names : List String} {start result : α}
    {step : Nat → α → String → Outline → Except Fault α} {members : List (String × Json)}
    (hsub : (Entries.keys members).Sublist names) (hnames : names.Nodup)
    (h : ∀ room, (∀ member ∈ members, member.2.depth ≤ room) →
      members.foldlM (readMember (step room)) start = .ok result) :
    Reads (readRecord names start step) (.object members) result := by
  intro room hroom
  rw [depth] at hroom
  obtain ⟨room, rfl⟩ : ∃ inner, room = inner + 1 := ⟨room - 1, by omega⟩
  rw [readRecord_object hsub hnames]
  refine h room fun member hmember => ?_
  have hdepth := depth_le_depthMembers hmember
  omega

/-- Without repeated names a value is read as itself. -/
theorem reads_json {allowed : JsonNumber → Prop} {value : Json} (h : Regular allowed value) :
    Reads readJson value value := by
  intro room hroom
  induction h generalizing room with
  | null | bool _ | number _ | string _ => cases room <;> rfl
  | @array items _ ih =>
    rw [depth] at hroom
    obtain ⟨room, rfl⟩ : ∃ inner, room = inner + 1 := ⟨room - 1, by omega⟩
    have hitems : (ofItems items).mapM (readJson room) = .ok items := by
      rw [ofItems_eq_map, Results.mapM_eq_ok_iff, List.forall₂_map_left_iff]
      refine List.forall₂_same.2 fun item hitem => ih item hitem room ?_
      have hdepth := depth_le_depthList hitem
      omega
    rw [ofJson, readJson, hitems]
    rfl
  | @object members hnames _ ih =>
    rw [depth] at hroom
    obtain ⟨room, rfl⟩ : ∃ inner, room = inner + 1 := ⟨room - 1, by omega⟩
    have hmembers : readMembers (readJson room)
        (ofMembers (members.map fun member => (member.1, id member.2))) true = .ok members := by
      refine readMembers_of_reads hnames fun member hmember => ih member hmember room ?_
      have hdepth := depth_le_depthMembers hmember
      omega
    rw [show members.map (fun member => (member.1, id member.2)) = members from List.map_id' _]
      at hmembers
    rw [ofJson, readJson, hmembers]
    rfl

end EntitySchema.Json
