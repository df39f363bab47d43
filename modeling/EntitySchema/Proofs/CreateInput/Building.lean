import EntitySchema.CreateInput.Generator
import EntitySchema.Proofs.CreateInput.Inputs
import Mathlib.Data.Finset.Card
import Mathlib.Data.Finset.Range

/-! # Building the inputs of one request

A request builds each type that it comes to once. A type under way is referred to by its slot, so
every slot that is handed out serves one type: it holds the input of that type, or the build of the
type is going to fill it. No build is cut off, because types that stand inside one another while
they are built are distinct. -/
namespace EntitySchema

theorem lookup_cons_ite {α : Type} (id key : TypeId) (value : α) (rest : List (TypeId × α)) :
    ((key, value) :: rest).lookup id = if id = key then some value else rest.lookup id := by
  rw [List.lookup_cons]
  by_cases h : id = key
  · simp [h]
  · simp [h, beq_eq_false_iff_ne.2 h]

theorem getElem?_append_of_some {α : Type} {items more : List α} {index : Nat} {item : α}
    (h : items[index]? = some item) : (items ++ more)[index]? = some item := by
  rw [List.getElem?_append_left (List.getElem?_eq_some_iff.1 h).1]
  exact h

/-! ### Stored inputs and the inputs they show -/

inductive StoredKind.Shows (serves : Nat → TypeId → Prop) : StoredKind → InputKind → Prop
  | basic : Shows serves .basic .basic
  | basicList : Shows serves .basicList .basicList
  | object {ref : SlotRef} {target : TypeId} (h : serves ref.slot target) :
      Shows serves (.object ref) (.object ⟨ref.name, target⟩)
  | objectList {ref : SlotRef} {target : TypeId} (h : serves ref.slot target) :
      Shows serves (.objectList ref) (.objectList ⟨ref.name, target⟩)
  | relation (toMany : Bool) : Shows serves (.relation toMany) (.relation toMany)

structure StoredField.Shows (serves : Nat → TypeId → Prop) (stored : StoredField)
    (field : InputField) : Prop where
  name_eq : stored.name = field.name
  field_eq : stored.field = field.field
  default_eq : stored.default = field.default
  type_eq : stored.type = field.type
  kind : stored.kind.Shows serves field.kind

structure StoredInput.Shows (serves : Nat → TypeId → Prop) (stored : StoredInput)
    (input : CreateInput) : Prop where
  name_eq : stored.name = input.name
  objectType_eq : stored.objectType = input.objectType
  server_eq : stored.server = input.server
  fields : List.Forall₂ (StoredField.Shows serves) stored.fields input.fields

section Mono

variable {serves serves' : Nat → TypeId → Prop}
  (hserves : ∀ slot id, serves slot id → serves' slot id)

include hserves

theorem StoredKind.Shows.mono {stored : StoredKind} {kind : InputKind}
    (h : stored.Shows serves kind) : stored.Shows serves' kind := by
  cases h with
  | basic => exact .basic
  | basicList => exact .basicList
  | object href => exact .object (hserves _ _ href)
  | objectList href => exact .objectList (hserves _ _ href)
  | relation toMany => exact .relation toMany

theorem StoredField.Shows.mono {stored : StoredField} {field : InputField}
    (h : stored.Shows serves field) : stored.Shows serves' field :=
  { h with kind := h.kind.mono hserves }

theorem StoredField.forall₂_shows_mono {stored : List StoredField} {fields : List InputField}
    (h : List.Forall₂ (StoredField.Shows serves) stored fields) :
    List.Forall₂ (StoredField.Shows serves') stored fields :=
  h.imp fun _ _ hfield => hfield.mono hserves

theorem StoredInput.Shows.mono {stored : StoredInput} {input : CreateInput}
    (h : stored.Shows serves input) : stored.Shows serves' input :=
  { h with fields := StoredField.forall₂_shows_mono hserves h.fields }

end Mono

namespace Build

variable {model : Model} {available : List (TypeId × Nat)} {build build' build'' : Build}

def home? (available : List (TypeId × Nat)) (build : Build) (id : TypeId) : Option Nat :=
  (available.lookup id).or (build.finished.lookup id)

/-- A slot serves a type that it holds the input of, or that is built for it. -/
inductive Serves (available : List (TypeId × Nat)) (build : Build) (slot : Nat) (id : TypeId) : Prop
  | holds {place : Nat} (hslot : build.slots[slot]? = some (some place))
      (hhome : build.home? available id = some place)
  | awaits {ref : SlotRef} (hbegun : build.begun.lookup id = some ref) (hslot : ref.slot = slot)

/-- What holds at every moment of a request. -/
structure Sound (model : Model) (available : List (TypeId × Nat)) (build : Build) : Prop where
  shows : ∀ id place, build.home? available id = some place →
    ∃ input stored, model.createInput? id = some input ∧ build.inputs[place]? = some stored ∧
      stored.Shows (build.Serves available) input
  named : ∀ id ref, build.begun.lookup id = some ref →
    ∃ type, model.type? id = some type ∧ ref.name = Names.createInput type.name
  /-- The slot of a type is empty until the type is finished. -/
  slot : ∀ id ref, build.begun.lookup id = some ref →
    build.slots[ref.slot]? = some (build.finished.lookup id)
  distinct : ∀ id id' ref ref', build.begun.lookup id = some ref →
    build.begun.lookup id' = some ref' → ref.slot = ref'.slot → id = id'
  unavailable : ∀ id ref, build.begun.lookup id = some ref → available.lookup id = none
  finished : ∀ id place, build.finished.lookup id = some place →
    ∃ ref, build.begun.lookup id = some ref

/-- What a part of a request leaves as it was, and that it finishes each type that it begins. -/
structure Grows (build build' : Build) : Prop where
  inputs : build.inputs <+: build'.inputs
  filled : ∀ slot place : Nat, build.slots[slot]? = some (some place) →
    build'.slots[slot]? = some (some place)
  begun : ∀ id ref, build.begun.lookup id = some ref → build'.begun.lookup id = some ref
  kept : ∀ id ref, build.begun.lookup id = some ref →
    build'.finished.lookup id = build.finished.lookup id
  done : ∀ id ref, build.begun.lookup id = none → build'.begun.lookup id = some ref →
    ∃ place, build'.finished.lookup id = some place

/-- Where nothing has been begun or finished, only the available inputs matter. -/
theorem Sound.of_idle (hbegun : build.begun = []) (hfinished : build.finished = [])
    (hshows : ∀ id place, available.lookup id = some place →
      ∃ input stored, model.createInput? id = some input ∧ build.inputs[place]? = some stored ∧
        stored.Shows (build.Serves available) input) : build.Sound model available := by
  have hnone : ∀ {id : TypeId} {ref : SlotRef}, build.begun.lookup id ≠ some ref := by
    simp [hbegun]
  constructor
  · intro id place hhome
    rw [home?, hfinished, List.lookup_nil, Option.or_none] at hhome
    exact hshows id place hhome
  · exact fun _ _ h => absurd h hnone
  · exact fun _ _ h => absurd h hnone
  · exact fun _ _ _ _ h => absurd h hnone
  · exact fun _ _ h => absurd h hnone
  · simp [hfinished]

namespace Grows

theorem refl (build : Build) : build.Grows build where
  inputs := List.prefix_refl _
  filled _ _ h := h
  begun _ _ h := h
  kept _ _ _ := rfl
  done id ref hnone hsome := by
    rw [hnone] at hsome
    cases hsome

theorem trans (h : build.Grows build') (h' : build'.Grows build'') : build.Grows build'' where
  inputs := h.inputs.trans h'.inputs
  filled slot place hslot := h'.filled slot place (h.filled slot place hslot)
  begun id ref hbegun := h'.begun id ref (h.begun id ref hbegun)
  kept id ref hbegun := by
    rw [h'.kept id ref (h.begun id ref hbegun), h.kept id ref hbegun]
  done id ref hnone hsome := by
    cases hmiddle : build'.begun.lookup id with
    | none => exact h'.done id ref hmiddle hsome
    | some ref' =>
      obtain ⟨place, hplace⟩ := h.done id ref' hnone hmiddle
      exact ⟨place, by rw [h'.kept id ref' hmiddle, hplace]⟩

theorem finished (h : build.Grows build') (hsound : build.Sound model available) {id : TypeId}
    {place : Nat} (hplace : build.finished.lookup id = some place) :
    build'.finished.lookup id = some place := by
  obtain ⟨ref, hbegun⟩ := hsound.finished id place hplace
  rw [h.kept id ref hbegun, hplace]

theorem home? (h : build.Grows build') (hsound : build.Sound model available) {id : TypeId}
    {place : Nat} (hplace : build.home? available id = some place) :
    build'.home? available id = some place := by
  rcases Option.or_eq_some_iff.1 hplace with hold | ⟨hnone, hfinished⟩
  · exact Option.or_eq_some_iff.2 (.inl hold)
  · exact Option.or_eq_some_iff.2 (.inr ⟨hnone, h.finished hsound hfinished⟩)

theorem serves (h : build.Grows build') (hsound : build.Sound model available) (slot : Nat)
    (id : TypeId) (hserves : build.Serves available slot id) : build'.Serves available slot id := by
  cases hserves with
  | holds hslot hhome => exact .holds (h.filled _ _ hslot) (h.home? hsound hhome)
  | awaits hbegun hslot => exact .awaits (h.begun _ _ hbegun) hslot

end Grows

/-! ### The types that have not been begun -/

def unbegun (model : Model) (build : Build) : Finset TypeId :=
  (Finset.range model.types.length).filter fun id => build.begun.lookup id = none

theorem mem_unbegun {id : TypeId} :
    id ∈ build.unbegun model ↔ id < model.types.length ∧ build.begun.lookup id = none := by
  simp [unbegun]

theorem Grows.card_unbegun_le (h : build.Grows build') :
    (build'.unbegun model).card ≤ (build.unbegun model).card := by
  apply Finset.card_le_card
  intro id hid
  obtain ⟨hlt, hnone⟩ := mem_unbegun.1 hid
  refine mem_unbegun.2 ⟨hlt, ?_⟩
  cases hbegun : build.begun.lookup id with
  | none => rfl
  | some ref =>
    rw [h.begun id ref hbegun] at hnone
    cases hnone

/-! ### References -/

structure Refers (model : Model) (available : List (TypeId × Nat)) (build : Build) (ref : SlotRef)
    (id : TypeId) : Prop where
  serves : build.Serves available ref.slot id
  named : ∃ type, model.type? id = some type ∧ ref.name = Names.createInput type.name

/-! ### Beginning and finishing a type -/

theorem lookup_start (build : Build) (id other : TypeId) (type : ObjectType) :
    (build.start id type).2.begun.lookup other =
      if other = id then some (build.start id type).1 else build.begun.lookup other := by
  rw [start, lookup_cons_ite]

theorem Sound.lookup_finished (h : build.Sound model available) {id : TypeId}
    (hnew : build.begun.lookup id = none) : build.finished.lookup id = none := by
  cases hfinished : build.finished.lookup id with
  | none => rfl
  | some place =>
    obtain ⟨ref, hbegun⟩ := h.finished id place hfinished
    rw [hnew] at hbegun
    cases hbegun

theorem Sound.slot_lt (h : build.Sound model available) {id : TypeId} {ref : SlotRef}
    (hbegun : build.begun.lookup id = some ref) : ref.slot < build.slots.length :=
  (List.getElem?_eq_some_iff.1 (h.slot id ref hbegun)).1

section Start

variable (h : build.Sound model available) {id : TypeId} {type : ObjectType}
  (hnew : build.begun.lookup id = none)

include hnew in
theorem serves_start (slot : Nat) (other : TypeId) (hserves : build.Serves available slot other) :
    (build.start id type).2.Serves available slot other := by
  cases hserves with
  | holds hslot hhome =>
    exact .holds (getElem?_append_of_some hslot) hhome
  | @awaits ref hbegun hslot =>
    have hne : other ≠ id := by
      rintro rfl
      rw [hnew] at hbegun
      cases hbegun
    refine @Serves.awaits _ _ _ _ ref ?_ hslot
    rw [lookup_start, if_neg hne]
    exact hbegun

include h hnew in
theorem Sound.start (htype : model.type? id = some type) (hfresh : available.lookup id = none) :
    (build.start id type).2.Sound model available := by
  have hcases : ∀ {other : TypeId} {ref : SlotRef},
      (build.start id type).2.begun.lookup other = some ref →
      other = id ∧ ref = (build.start id type).1 ∨
        other ≠ id ∧ build.begun.lookup other = some ref := by
    intro other ref hbegun
    rw [lookup_start] at hbegun
    by_cases hother : other = id
    · rw [if_pos hother] at hbegun
      exact .inl ⟨hother, (Option.some.inj hbegun).symm⟩
    · rw [if_neg hother] at hbegun
      exact .inr ⟨hother, hbegun⟩
  constructor
  · intro other place hhome
    obtain ⟨input, stored, hinput, hstored, hshows⟩ := h.shows other place hhome
    exact ⟨input, stored, hinput, hstored, hshows.mono (serves_start hnew)⟩
  · intro other ref hbegun
    rcases hcases hbegun with ⟨rfl, rfl⟩ | ⟨-, hold⟩
    · exact ⟨type, htype, rfl⟩
    · exact h.named other ref hold
  · intro other ref hbegun
    rcases hcases hbegun with ⟨rfl, rfl⟩ | ⟨-, hold⟩
    · have hnone := h.lookup_finished hnew
      simp [Build.start, hnone]
    · exact getElem?_append_of_some (h.slot other ref hold)
  · intro first second ref ref' hfirst hsecond hsame
    rcases hcases hfirst with ⟨rfl, rfl⟩ | ⟨-, hold⟩
    · rcases hcases hsecond with ⟨rfl, -⟩ | ⟨-, hold'⟩
      · rfl
      · have hlt := h.slot_lt hold'
        simp only [Build.start] at hsame
        omega
    · rcases hcases hsecond with ⟨rfl, rfl⟩ | ⟨-, hold'⟩
      · have hlt := h.slot_lt hold
        simp only [Build.start] at hsame
        omega
      · exact h.distinct first second ref ref' hold hold' hsame
  · intro other ref hbegun
    rcases hcases hbegun with ⟨rfl, -⟩ | ⟨-, hold⟩
    · exact hfresh
    · exact h.unavailable other ref hold
  · intro other place hfinished
    obtain ⟨ref, hold⟩ := h.finished other place hfinished
    have hne : other ≠ id := by
      rintro rfl
      rw [hnew] at hold
      cases hold
    refine ⟨ref, ?_⟩
    rw [lookup_start, if_neg hne]
    exact hold

include hnew in
theorem card_unbegun_start (hlt : id < model.types.length) :
    ((build.start id type).2.unbegun model).card < (build.unbegun model).card := by
  apply Finset.card_lt_card
  rw [Finset.ssubset_iff_of_subset]
  · refine ⟨id, mem_unbegun.2 ⟨hlt, hnew⟩, ?_⟩
    intro hmem
    have hnone := (mem_unbegun.1 hmem).2
    rw [lookup_start, if_pos rfl] at hnone
    cases hnone
  · intro other hother
    obtain ⟨hin, hnone⟩ := mem_unbegun.1 hother
    rw [lookup_start] at hnone
    by_cases hsame : other = id
    · rw [if_pos hsame] at hnone
      cases hnone
    · rw [if_neg hsame] at hnone
      exact mem_unbegun.2 ⟨hin, hnone⟩

end Start

section Finish

variable {id : TypeId} {ref : SlotRef} {stored : StoredInput}

theorem lookup_finish (build : Build) (id other : TypeId) (ref : SlotRef) (stored : StoredInput) :
    (build.finish id ref stored).2.finished.lookup other =
      (build.finished.lookup other).or (if other = id then some build.inputs.length else none) := by
  simp only [finish, List.lookup_append, lookup_cons_ite, List.lookup_nil]

theorem slots_finish (build : Build) (id : TypeId) (ref : SlotRef) (stored : StoredInput)
    (slot : Nat) :
    (build.finish id ref stored).2.slots[slot]? =
      if slot = ref.slot then build.slots[slot]?.map (·.or (some build.inputs.length))
      else build.slots[slot]? := by
  simp only [finish, List.getElem?_modify]
  by_cases h : slot = ref.slot
  · simp [h]
  · cases build.slots[slot]? <;> simp [h, Ne.symm h]

theorem filled_finish {slot place : Nat} (hslot : build.slots[slot]? = some (some place)) :
    (build.finish id ref stored).2.slots[slot]? = some (some place) := by
  rw [slots_finish, hslot]
  by_cases h : slot = ref.slot
  · rw [if_pos h]
    rfl
  · rw [if_neg h]

theorem home?_finish {other : TypeId} {place : Nat}
    (hhome : build.home? available other = some place) :
    (build.finish id ref stored).2.home? available other = some place := by
  rw [home?, lookup_finish]
  rcases Option.or_eq_some_iff.1 hhome with hold | ⟨hnone, hfinished⟩
  · simp [hold]
  · simp [hnone, hfinished]

theorem serves_finish (slot : Nat) (other : TypeId) (hserves : build.Serves available slot other) :
    (build.finish id ref stored).2.Serves available slot other := by
  cases hserves with
  | holds hslot hhome => exact .holds (filled_finish hslot) (home?_finish hhome)
  | awaits hbegun hslot => exact .awaits hbegun hslot

/-- The input of a finished type stands for the type: it fills the slot that the others wait for. -/
theorem Sound.finish (h : build.Sound model available) (hbegun : build.begun.lookup id = some ref)
    (hopen : build.finished.lookup id = none) {input : CreateInput}
    (hinput : model.createInput? id = some input)
    (hshows : stored.Shows (build.Serves available) input) :
    (build.finish id ref stored).2.Sound model available := by
  have hplace : (build.finish id ref stored).2.finished.lookup id = some build.inputs.length := by
    rw [lookup_finish, hopen, if_pos rfl]
    rfl
  have hothers : ∀ other, other ≠ id →
      (build.finish id ref stored).2.finished.lookup other = build.finished.lookup other := by
    intro other hne
    rw [lookup_finish, if_neg hne, Option.or_none]
  constructor
  · intro other place hhome
    by_cases hother : other = id
    · subst hother
      rw [home?, h.unavailable other ref hbegun, Option.none_or, hplace] at hhome
      cases hhome
      refine ⟨input, stored, hinput, ?_, hshows.mono serves_finish⟩
      simp [Build.finish]
    · rw [home?, hothers other hother] at hhome
      obtain ⟨input', stored', hinput', hstored', hshows'⟩ := h.shows other place hhome
      refine ⟨input', stored', hinput', ?_, hshows'.mono serves_finish⟩
      exact getElem?_append_of_some hstored'
  · exact h.named
  · intro other ref' hbegun'
    have hslot := h.slot other ref' hbegun'
    rw [slots_finish]
    by_cases hother : other = id
    · subst hother
      obtain rfl : ref' = ref := Option.some.inj (hbegun'.symm.trans hbegun)
      rw [if_pos rfl, hslot, hopen, hplace]
      rfl
    · -- Filling the slot of one type leaves those of the others empty.
      have hne : ref'.slot ≠ ref.slot := fun hsame =>
        hother (h.distinct other id ref' ref hbegun' hbegun hsame)
      rw [if_neg hne, hothers other hother, hslot]
  · exact h.distinct
  · exact h.unavailable
  · intro other place hfinished
    by_cases hother : other = id
    · subst hother
      exact ⟨ref, hbegun⟩
    · rw [hothers other hother] at hfinished
      exact h.finished other place hfinished

/-- Beginning a type, doing what finishes all that it begins, and finishing the type. -/
theorem Grows.around {type : ObjectType} (hsound : build.Sound model available)
    (hnew : build.begun.lookup id = none) (hinner : (build.start id type).2.Grows build') :
    build.Grows (build'.finish id (build.start id type).1 stored).2 ∧
      build'.begun.lookup id = some (build.start id type).1 ∧
      build'.finished.lookup id = none := by
  have hstarted : (build.start id type).2.begun.lookup id = some (build.start id type).1 := by
    rw [lookup_start, if_pos rfl]
  have hopen : build'.finished.lookup id = none := by
    rw [hinner.kept id _ hstarted]
    exact hsound.lookup_finished hnew
  have hne : ∀ {other ref}, build.begun.lookup other = some ref → other ≠ id := by
    rintro other ref hbegun rfl
    rw [hnew] at hbegun
    cases hbegun
  have hold : ∀ {other ref}, build.begun.lookup other = some ref →
      (build.start id type).2.begun.lookup other = some ref := by
    intro other ref hbegun
    rw [lookup_start, if_neg (hne hbegun)]
    exact hbegun
  refine ⟨?_, hinner.begun id _ hstarted, hopen⟩
  constructor
  · exact hinner.inputs.trans (List.prefix_append _ _)
  · intro slot place hslot
    apply filled_finish
    apply hinner.filled
    exact getElem?_append_of_some hslot
  · intro other ref hbegun
    exact hinner.begun other ref (hold hbegun)
  · intro other ref hbegun
    rw [lookup_finish, if_neg (hne hbegun), Option.or_none, hinner.kept other ref (hold hbegun)]
    rfl
  · intro other ref hnone hsome
    rw [lookup_finish]
    by_cases hother : other = id
    · subst hother
      exact ⟨_, by rw [hopen, if_pos rfl]; rfl⟩
    · have hstill : (build.start id type).2.begun.lookup other = none := by
        rw [lookup_start, if_neg hother]
        exact hnone
      obtain ⟨place, hplace⟩ := hinner.done other ref hstill hsome
      exact ⟨place, by rw [hplace]; rfl⟩

end Finish

/-! ### What each part of a request does -/

def Completes {α : Type} (model : Model) (available : List (TypeId × Nat)) (build : Build)
    (part : Build → Option (α × Build)) (post : α → Build → Prop) : Prop :=
  ∃ result build', part build = some (result, build') ∧ build'.Sound model available ∧
    build.Grows build' ∧ post result build'

theorem link_completes (hsound : build.Sound model available) {id : TypeId} {place : Nat}
    (hhome : build.home? available id = some place) :
    Completes model available build (fun build => build.link place)
      fun ref build' => build'.Refers model available ref id := by
  obtain ⟨input, stored, hinput, hstored, hshows⟩ := hsound.shows id place hhome
  obtain ⟨type, htype, rfl⟩ := Model.createInput?_eq_some_iff.1 hinput
  have hgrows : build.Grows { build with slots := build.slots ++ [some place] } := by
    constructor
    · exact List.prefix_refl _
    · intro slot other hslot
      exact getElem?_append_of_some hslot
    · exact fun _ _ hbegun => hbegun
    · exact fun _ _ _ => rfl
    · intro other ref hnone hsome
      rw [hnone] at hsome
      cases hsome
  refine ⟨{ name := stored.name, slot := build.slots.length },
    { build with slots := build.slots ++ [some place] }, ?_, ?_, hgrows, ?_⟩
  · simp [link, hstored]
  · constructor
    · intro other place' hhome'
      obtain ⟨input', stored', hinput', hstored', hshows'⟩ := hsound.shows other place' hhome'
      exact ⟨input', stored', hinput', hstored', hshows'.mono (hgrows.serves hsound)⟩
    · exact hsound.named
    · intro other ref hbegun
      exact getElem?_append_of_some (hsound.slot other ref hbegun)
    · exact hsound.distinct
    · exact hsound.unavailable
    · exact hsound.finished
  · exact ⟨.holds (by simp) hhome, type, htype, hshows.name_eq⟩

section Parts

variable {builder : Builder} {n : Nat}

def Builds (model : Model) (available : List (TypeId × Nat)) (n : Nat) (builder : Builder) : Prop :=
  ∀ id build, build.Sound model available → available.lookup id = none →
    build.begun.lookup id = none → id < model.types.length → (build.unbegun model).card ≤ n →
    Completes model available build (builder id)
      fun place build' => build'.home? available id = some place

theorem nested_completes (hbuilds : Builds model available n builder)
    (hsound : build.Sound model available) {id : TypeId} (hlt : id < model.types.length)
    (hcard : (build.unbegun model).card ≤ n) :
    Completes model available build (nested available builder id)
      fun ref build' => build'.Refers model available ref id := by
  cases havailable : available.lookup id with
  | some place =>
    have hhome : build.home? available id = some place := by
      rw [home?, havailable, Option.some_or]
    have hlink := link_completes hsound hhome
    obtain ⟨ref, build', hpart, hrest⟩ := hlink
    exact ⟨ref, build', by simp only [nested, havailable]; exact hpart, hrest⟩
  | none =>
    cases hbegun : build.begun.lookup id with
    | some ref =>
      have hrefers : build.Refers model available ref id :=
        ⟨.awaits hbegun rfl, hsound.named id ref hbegun⟩
      exact ⟨ref, build, by simp only [nested, havailable, hbegun], hsound, .refl build, hrefers⟩
    | none =>
      obtain ⟨place, middle, hpart, hsound', hgrows, hhome⟩ :=
        hbuilds id build hsound havailable hbegun hlt hcard
      obtain ⟨ref, last, hlink, hsound'', hgrows', hrefers⟩ := link_completes hsound' hhome
      refine ⟨ref, last, ?_, hsound'', hgrows.trans hgrows', hrefers⟩
      simp only [nested, havailable, hbegun, hpart, Option.bind_eq_bind, Option.bind_some]
      exact hlink

/-- The field shows what the model makes of its type and flags; only a field that embeds objects
builds anything. -/
theorem field_completes (hbuilds : Builds model available n builder)
    (hsound : build.Sound model available) {source : Field}
    (htarget : ∀ target, source.type = .object target → target < model.types.length)
    (hcard : (build.unbegun model).card ≤ n) :
    Completes model available build (field available builder source) fun stored build' =>
      stored.Shows (build'.Serves available) (CreateInput.inputField model source) := by
  have hleaf : ∀ name serves, StoredField.Shows serves
      (.ofField source (inputType name source.list) (.leaf source.list))
      { name := source.name, field := source.id, default := source.default,
        type := (CreateInput.leaf name source.list).1,
        kind := (CreateInput.leaf name source.list).2 } := by
    intro name serves
    cases source.list with
    | false => exact ⟨rfl, rfl, rfl, rfl, .basic⟩
    | true => exact ⟨rfl, rfl, rfl, rfl, .basicList⟩
  rw [CreateInput.inputField, CreateInput.shape]
  cases htype : source.type with
  | scalar name | enumeration name =>
    refine ⟨.ofField source (inputType name source.list) (.leaf source.list), build, ?_, hsound,
      .refl build, hleaf name _⟩
    simp only [field, htype]
  | object target =>
    by_cases hrelation : source.relation = true
    · simp only [if_pos hrelation]
      refine ⟨.ofField source (inputType "ID" source.list) (.relation source.list), build, ?_,
        hsound, .refl build, ⟨rfl, rfl, rfl, rfl, .relation source.list⟩⟩
      simp only [field, htype, if_pos hrelation]
    · by_cases hreference : source.reference = true
      · simp only [if_neg hrelation, if_pos hreference]
        refine ⟨.ofField source (inputType "String" source.list) (.leaf source.list), build, ?_,
          hsound, .refl build, hleaf "String" _⟩
        simp only [field, htype, if_neg hrelation, if_pos hreference]
      · obtain ⟨ref, build', hpart, hsound', hgrows, hserves, type, hfound, hname⟩ :=
          nested_completes hbuilds hsound (htarget target htype) hcard
        simp only [if_neg hrelation, if_neg hreference, hfound, Option.map_some, Option.getD_some,
          ← hname]
        refine ⟨.ofField source (inputType ref.name source.list) (.embedded ref source.list),
          build', ?_, hsound', hgrows, ?_⟩
        · simp only [field, htype, if_neg hrelation, if_neg hreference, hpart, Option.bind_eq_bind,
            Option.bind_some]
          rfl
        · cases source.list with
          | false => exact ⟨rfl, rfl, rfl, rfl, .object hserves⟩
          | true => exact ⟨rfl, rfl, rfl, rfl, .objectList hserves⟩

theorem fields_completes (hbuilds : Builds model available n builder) {sources : List Field}
    (htarget : ∀ source ∈ sources, ∀ target, source.type = .object target →
      target < model.types.length)
    (hsound : build.Sound model available) (hcard : (build.unbegun model).card ≤ n) :
    Completes model available build (fields available builder sources) fun stored build' =>
      List.Forall₂ (StoredField.Shows (build'.Serves available)) stored
        (sources.map (CreateInput.inputField model)) := by
  induction sources generalizing build with
  | nil => exact ⟨[], build, rfl, hsound, .refl build, .nil⟩
  | cons first rest ih =>
    have hfirst := field_completes hbuilds hsound (htarget first List.mem_cons_self) hcard
    obtain ⟨stored, middle, hpart, hsound', hgrows, hshows⟩ := hfirst
    have hcard' : (middle.unbegun model).card ≤ n := hgrows.card_unbegun_le.trans hcard
    obtain ⟨others, last, hpart', hsound'', hgrows', hothers⟩ :=
      ih (fun source hsource => htarget source (List.mem_cons_of_mem _ hsource)) hsound' hcard'
    refine ⟨stored :: others, last, ?_, hsound'', hgrows.trans hgrows', ?_⟩
    · simp only [fields, hpart, hpart', Option.bind_eq_bind, Option.bind_some]
      rfl
    · exact .cons (hshows.mono (hgrows'.serves hsound')) hothers

end Parts

/-- The induction is on how deep builds may stand inside one another. A build begins a type and
leaves one less for those inside it. -/
theorem input_builds {decl : ModelDecl} (hresolve : Model.resolve decl = .ok model)
    (available : List (TypeId × Nat)) (depth : Nat) :
    Builds model available depth (input model available depth) := by
  induction depth with
  | zero =>
    -- The type itself has not been begun, so that some depth is left.
    intro id build hsound hfresh hnew hlt hcard
    have hpos : 0 < (build.unbegun model).card :=
      Finset.card_pos.2 ⟨id, mem_unbegun.2 ⟨hlt, hnew⟩⟩
    omega
  | succ depth ih =>
    intro id build hsound hfresh hnew hlt hcard
    have htype : model.type? id = some model.types[id] := List.getElem?_eq_getElem hlt
    generalize model.types[id] = type at htype
    obtain ⟨_, -, hresolved⟩ := Model.resolved_type hresolve htype
    have hcard' : ((build.start id type).2.unbegun model).card ≤ depth := by
      have hless : ((build.start id type).2.unbegun model).card < (build.unbegun model).card :=
        card_unbegun_start hnew hlt
      omega
    have htarget : ∀ source ∈ type.fields.filter (!·.system), ∀ target,
        source.type = .object target → target < model.types.length := by
      intro source hsource target hobject
      exact Model.target_lt hresolve htype (List.mem_of_mem_filter hsource) hobject
    obtain ⟨stored, inner, hpart, hsound', hgrows, hshows⟩ :=
      fields_completes ih htarget (hsound.start hnew htype hfresh) hcard'
    have hinput : model.createInput? id = some (CreateInput.ofType model type) :=
      Model.createInput?_eq_some_iff.2 ⟨type, htype, rfl⟩
    let input : StoredInput :=
      { name := (build.start id type).1.name, objectType := id,
        server := CreateInput.serverProperties type.kind, fields := stored }
    have hshown : input.Shows (inner.Serves available) (CreateInput.ofType model type) :=
      ⟨rfl, hresolved.id_eq.symm, rfl, hshows⟩
    obtain ⟨hgrows', hbegun, hopen⟩ := Grows.around hsound hnew hgrows
    refine ⟨inner.inputs.length, (inner.finish id (build.start id type).1 input).2, ?_,
      hsound'.finish hbegun hopen hinput hshown, hgrows', ?_⟩
    · simp only [Build.input, htype, hpart, Option.bind_eq_bind, Option.bind_some]
      rfl
    · beta_reduce
      rw [home?, hfresh, Option.none_or, lookup_finish, hopen, if_pos rfl, Option.none_or]

end Build

end EntitySchema
