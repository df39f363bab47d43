import EntitySchema.Entries
import Mathlib.Data.List.Nodup
import Mathlib.Data.List.Perm.Subperm

/-! # Lists of named values whose names are distinct

In such a list an entry and a lookup say the same. Collecting pairs makes such a list, in which the
last value of each name is found, and does nothing to a list that is one already. Two such lists can
be compared name by name, whatever the order of their entries. -/
namespace EntitySchema.Entries

variable {α : Type}

@[simp] theorem get?_nil (key : String) : get? ([] : Entries α) key = none := rfl

theorem get?_cons (k : String) (v : α) (rest : Entries α) (key : String) :
    get? ((k, v) :: rest) key = if k = key then some v else get? rest key := by
  by_cases h : k = key
  · simp [get?, h]
  · simp [get?, h, beq_eq_false_iff_ne.2 h]

theorem get?_append (entries others : Entries α) (key : String) :
    get? (entries ++ others) key = (get? entries key).or (get? others key) := by
  induction entries with
  | nil => simp
  | cons entry rest ih =>
    obtain ⟨k, v⟩ := entry
    by_cases h : k = key
    · simp [get?_cons, h]
    · simp [get?_cons, h, ih]

theorem get?_eq_none_iff {entries : Entries α} {key : String} :
    get? entries key = none ↔ key ∉ keys entries := by
  simp only [get?, Option.map_eq_none_iff, List.find?_eq_none, keys, List.mem_map, beq_iff_eq]
  constructor
  · rintro h ⟨entry, hmem, rfl⟩
    exact h entry hmem rfl
  · rintro h entry hmem rfl
    exact h ⟨entry, hmem, rfl⟩

theorem mem_keys_iff {entries : Entries α} {key : String} :
    key ∈ keys entries ↔ ∃ value, get? entries key = some value := by
  rw [← Option.isSome_iff_exists, Option.isSome_iff_ne_none, ne_eq, get?_eq_none_iff, not_not]

theorem get?_map {β : Type} (f : α → β) (entries : Entries α) (key : String) :
    get? (entries.map fun entry => (entry.1, f entry.2)) key = (get? entries key).map f := by
  induction entries with
  | nil => rfl
  | cons first rest ih =>
    rw [List.map_cons, get?_cons, get?_cons, ih]
    split <;> rfl

theorem contains_eq_isSome (entries : Entries α) (key : String) :
    contains entries key = (get? entries key).isSome := by
  induction entries with
  | nil => rfl
  | cons entry rest ih =>
    obtain ⟨k, v⟩ := entry
    by_cases h : k = key
    · simp [contains, get?_cons, h]
    · simp only [contains] at ih
      simp [contains, get?_cons, h, ih]

theorem mem_iff_get? {entries : Entries α} (h : (keys entries).Nodup) {key : String} {value : α} :
    (key, value) ∈ entries ↔ get? entries key = some value := by
  refine ⟨fun hmem => ?_, get?_mem⟩
  induction entries with
  | nil => cases hmem
  | cons entry rest ih =>
    obtain ⟨k, v⟩ := entry
    obtain ⟨hnew, hrest⟩ := List.nodup_cons.1 h
    rcases List.mem_cons.1 hmem with heq | htail
    · obtain ⟨rfl, rfl⟩ := Prod.mk.inj heq
      simp [get?_cons]
    · have hne : k ≠ key := by
        rintro rfl
        exact hnew (List.mem_map.2 ⟨_, htail, rfl⟩)
      rw [get?_cons, if_neg hne]
      exact ih hrest htail

/-- A lookup by name does not see the order of distinct names. -/
theorem get?_of_perm {entries others : Entries α} (hperm : entries.Perm others)
    (h : (keys entries).Nodup) (key : String) : get? entries key = get? others key := by
  have h' : (keys others).Nodup := (hperm.map _).nodup_iff.1 h
  refine Option.ext fun value => ?_
  rw [← mem_iff_get? h, ← mem_iff_get? h', hperm.mem_iff]

theorem mem_put {entries : Entries α} {key : String} {value : α} {entry : String × α}
    (h : entry ∈ put entries key value) : entry = (key, value) ∨ entry ∈ entries := by
  induction entries with
  | nil => exact .inl (List.mem_singleton.1 h)
  | cons first rest ih =>
    obtain ⟨k, v⟩ := first
    simp only [put] at h
    split at h
    · rename_i heq
      subst heq
      exact (List.mem_cons.1 h).imp_right (List.mem_cons_of_mem _)
    · rcases List.mem_cons.1 h with rfl | htail
      · exact .inr List.mem_cons_self
      · exact (ih htail).imp_right (List.mem_cons_of_mem _)

theorem put_of_not_mem {entries : Entries α} {key : String} (value : α)
    (h : key ∉ keys entries) : put entries key value = entries ++ [(key, value)] := by
  induction entries with
  | nil => rfl
  | cons first rest ih =>
    obtain ⟨k, v⟩ := first
    have hk : k ≠ key := fun heq => h (heq ▸ List.mem_cons_self)
    have hrest : key ∉ keys rest := fun hmem => h (List.mem_cons_of_mem _ hmem)
    simp [put, hk, ih hrest]

theorem keys_put_of_mem {entries : Entries α} {key : String} (value : α)
    (h : key ∈ keys entries) : keys (put entries key value) = keys entries := by
  induction entries with
  | nil => cases h
  | cons first rest ih =>
    obtain ⟨k, v⟩ := first
    by_cases hk : k = key
    · simp [put, hk, keys]
    · have hrest : key ∈ keys rest :=
        (List.mem_cons.1 h).resolve_left fun heq => hk heq.symm
      have := ih hrest
      simp only [keys] at this
      simp [put, hk, keys, this]

theorem nodup_put {entries : Entries α} (key : String) (value : α) (h : (keys entries).Nodup) :
    (keys (put entries key value)).Nodup := by
  by_cases hmem : key ∈ keys entries
  · rwa [keys_put_of_mem value hmem]
  · rw [put_of_not_mem value hmem, keys, List.map_append]
    exact List.nodup_append.2 ⟨h, List.nodup_singleton _, fun a ha b hb hab => by
      obtain rfl : b = key := List.mem_singleton.1 hb
      exact hmem (hab ▸ ha)⟩

theorem get?_put (entries : Entries α) (k : String) (v : α) (key : String) :
    get? (put entries k v) key = if k = key then some v else get? entries key := by
  induction entries with
  | nil => exact get?_cons k v [] key
  | cons first rest ih =>
    obtain ⟨k', v'⟩ := first
    by_cases hk : k' = k
    · subst hk
      by_cases h : k' = key <;> simp [put, get?_cons, h]
    · rw [put, if_neg hk, get?_cons, get?_cons, ih]
      split_ifs with h' h
      · exact absurd (h'.trans h.symm) hk
      all_goals rfl

theorem get?_foldl_put (pairs : List (String × α)) (entries : Entries α) (key : String) :
    get? (pairs.foldl (fun entries pair => entries.put pair.1 pair.2) entries) key =
      (get? pairs.reverse key).or (get? entries key) := by
  induction pairs generalizing entries with
  | nil => simp
  | cons pair rest ih =>
    obtain ⟨k, v⟩ := pair
    rw [List.foldl_cons, ih, List.reverse_cons, get?_append, get?_put, get?_cons, Option.or_assoc]
    by_cases h : k = key <;> simp [h]

/-- The last value of a name is the one that stays. -/
theorem get?_collect (pairs : List (String × α)) (key : String) :
    get? (collect pairs) key = get? pairs.reverse key := by
  simp [collect, get?_foldl_put]

theorem get?_collect_append {front back : List (String × α)} (h : (keys back).Nodup)
    {key : String} {value : α} (hmem : (key, value) ∈ back) :
    get? (collect (front ++ back)) key = some value := by
  have hnames : (keys back.reverse).Nodup := by
    rw [keys, List.map_reverse]
    exact List.nodup_reverse.2 h
  rw [get?_collect, List.reverse_append, get?_append,
    (mem_iff_get? hnames).1 (List.mem_reverse.2 hmem), Option.some_or]

theorem keys_collect_subset (pairs : List (String × α)) : keys pairs ⊆ keys (collect pairs) := by
  intro key hmem
  by_contra hnot
  rw [← get?_eq_none_iff, get?_collect, get?_eq_none_iff, keys, List.map_reverse] at hnot
  exact hnot (List.mem_reverse.2 hmem)

/-- What collecting adds to a list keeps the names of that list distinct. -/
theorem nodup_foldl_put (pairs : List (String × α)) (entries : Entries α)
    (h : (keys entries).Nodup) :
    (keys (pairs.foldl (fun entries pair => entries.put pair.1 pair.2) entries)).Nodup := by
  induction pairs generalizing entries with
  | nil => exact h
  | cons pair rest ih => exact ih _ (nodup_put _ _ h)

theorem nodup_collect (pairs : List (String × α)) : (keys (collect pairs)).Nodup :=
  nodup_foldl_put pairs [] List.nodup_nil

theorem mem_foldl_put {pairs : List (String × α)} {entries : Entries α} {entry : String × α}
    (h : entry ∈ pairs.foldl (fun entries pair => entries.put pair.1 pair.2) entries) :
    entry ∈ pairs ∨ entry ∈ entries := by
  induction pairs generalizing entries with
  | nil => exact .inr h
  | cons pair rest ih =>
    rcases ih h with hrest | hput
    · exact .inl (List.mem_cons_of_mem _ hrest)
    · rcases mem_put hput with rfl | hold
      · exact .inl List.mem_cons_self
      · exact .inr hold

theorem mem_collect {pairs : List (String × α)} {entry : String × α}
    (h : entry ∈ collect pairs) : entry ∈ pairs :=
  (mem_foldl_put h).resolve_right List.not_mem_nil

theorem collect_of_nodup {pairs : List (String × α)} (h : (keys pairs).Nodup) :
    collect pairs = pairs := by
  have hfold : ∀ (rest entries : List (String × α)), (keys (entries ++ rest)).Nodup →
      rest.foldl (fun entries pair => Entries.put entries pair.1 pair.2) entries =
        entries ++ rest := by
    intro rest
    induction rest with
    | nil => simp
    | cons pair rest ih =>
      intro entries hnodup
      have hnew : pair.1 ∉ keys entries := by
        intro hmem
        rw [keys, List.map_append] at hnodup
        exact (List.nodup_append.1 hnodup).2.2 _ hmem _ List.mem_cons_self rfl
      rw [List.foldl_cons, put_of_not_mem _ hnew, ih _ (by simpa using hnodup)]
      simp
  exact hfold pairs [] h

/-- Each entry has a partner of its name in another list, which has no more entries. -/
def Paired (R : α → α → Prop) (entries others : Entries α) : Prop :=
  entries.length = others.length ∧
    ∀ entry ∈ entries, ∃ other, get? others entry.1 = some other ∧ R entry.2 other

/-- Values may be changed on both sides as long as this keeps what relates them. -/
theorem paired_map_iff {β : Type} {R : α → α → Prop} {S : β → β → Prop} {f : α → β}
    {entries others : Entries α}
    (h : ∀ entry ∈ entries, ∀ other, S (f entry.2) (f other) ↔ R entry.2 other) :
    Paired S (entries.map fun entry => (entry.1, f entry.2))
      (others.map fun entry => (entry.1, f entry.2)) ↔ Paired R entries others := by
  simp only [Paired, List.length_map, List.forall_mem_map, get?_map, Option.map_eq_some_iff]
  refine and_congr_right' (forall₂_congr fun entry hentry => ?_)
  constructor
  · rintro ⟨_, ⟨other, hget, rfl⟩, hrel⟩
    exact ⟨other, hget, (h entry hentry other).1 hrel⟩
  · rintro ⟨other, hget, hrel⟩
    exact ⟨f other, ⟨other, hget, rfl⟩, (h entry hentry other).2 hrel⟩

/-- Names that are no more than those of the other list, and as many, are all of them. -/
theorem Paired.perm_keys {R : α → α → Prop} {entries others : Entries α}
    (h : Paired R entries others) (hnames : (keys entries).Nodup) :
    (keys entries).Perm (keys others) := by
  obtain ⟨hlength, hpartner⟩ := h
  have hsub : keys entries ⊆ keys others := by
    intro name hname
    obtain ⟨entry, hentry, rfl⟩ := List.mem_map.1 hname
    obtain ⟨other, hget, -⟩ := hpartner entry hentry
    exact mem_keys_iff.2 ⟨other, hget⟩
  exact (List.subperm_of_subset hnames hsub).perm_of_length_le (by simp [keys, hlength])

theorem paired_iff {R : α → α → Prop} {entries others : Entries α} (h : (keys entries).Nodup)
    (h' : (keys others).Nodup) : Paired R entries others ↔
      ∀ key, Option.Rel R (get? entries key) (get? others key) := by
  constructor
  · intro hpaired key
    have hperm := hpaired.perm_keys h
    obtain ⟨-, hpartner⟩ := hpaired
    cases hget : get? entries key with
    | none =>
      rw [get?_eq_none_iff, hperm.mem_iff, ← get?_eq_none_iff] at hget
      rw [hget]
      exact .none
    | some value =>
      obtain ⟨other, hother, hrel⟩ := hpartner _ (get?_mem hget)
      rw [hother]
      exact .some hrel
  · intro hrel
    have hnames : ∀ key, key ∈ keys entries ↔ key ∈ keys others := by
      intro key
      have hkey := hrel key
      rw [mem_keys_iff, mem_keys_iff]
      generalize get? entries key = value, get? others key = other at hkey
      cases hkey <;> simp
    refine ⟨?_, fun entry hentry => ?_⟩
    · simpa [keys] using ((List.perm_ext_iff_of_nodup h h').2 hnames).length_eq
    · have hkey := hrel entry.1
      rw [(mem_iff_get? h).1 hentry] at hkey
      cases hget : get? others entry.1 with
      | none => rw [hget] at hkey; cases hkey
      | some other =>
        rw [hget] at hkey
        cases hkey with
        | some hsame => exact ⟨other, rfl, hsame⟩

end EntitySchema.Entries
