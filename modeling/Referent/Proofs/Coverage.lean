import Mathlib.Data.List.Induction
import Referent.Proofs.Models
import Referent.Proofs.Seeding

/-!
# What an index by id covers

A library that starts from another one copies its index by id with its entities. If that index has
been released, the copy starts an empty one, and the entities that were copied never enter it. So
an index covers what was loaded since some slot (`Table.Covers`): an id leads to the last type that
has it, if that type was loaded since, and nowhere otherwise. Rows keep it so, and wiring does.

Every library that tracks ids covers what was loaded since some slot (`Reached.covers`). A library
covers everything if its index was never released, and neither was that of a library that it
started from (`KeepsIndex.covers`).
-/

namespace Referent

/-! ## The first and the last of a list -/

section Positions

variable {α : Type} {p : α → Prop} {as : List α} {a : α} {i : Nat}

/-- The first element with a property stands at a position. -/
def FirstAt (p : α → Prop) (as : List α) (i : Nat) : Prop :=
  (∃ a ∈ as[i]?, p a) ∧ ∀ other ∈ as.take i, ¬ p other

/-- The last element with a property stands at a position. -/
def LastAt (p : α → Prop) (as : List α) (i : Nat) : Prop :=
  (∃ a ∈ as[i]?, p a) ∧ ∀ other ∈ as.drop (i + 1), ¬ p other

instance [DecidablePred p] : Decidable (FirstAt p as i) :=
  inferInstanceAs (Decidable ((∃ a ∈ as[i]?, p a) ∧ ∀ other ∈ as.take i, ¬ p other))

instance [DecidablePred p] : Decidable (LastAt p as i) :=
  inferInstanceAs (Decidable ((∃ a ∈ as[i]?, p a) ∧ ∀ other ∈ as.drop (i + 1), ¬ p other))

/-- Where an element of a longer list stands. -/
theorem exists_getElem?_concat :
    (∃ b ∈ (as ++ [a])[i]?, p b) ↔ (∃ b ∈ as[i]?, p b) ∨ i = as.length ∧ p a := by
  rcases Nat.lt_trichotomy i as.length with hlt | rfl | hgt
  · rw [List.getElem?_append_left hlt]
    constructor
    · exact .inl
    · rintro (h | ⟨rfl, -⟩)
      · exact h
      · exact absurd hlt (Nat.lt_irrefl _)
  · simp
  · have hnone : as[i]? = none := List.getElem?_eq_none (Nat.le_of_lt hgt)
    have hnone' : (as ++ [a])[i]? = none :=
      List.getElem?_eq_none (by simpa using Nat.succ_le_of_lt hgt)
    rw [hnone, hnone']
    simp only [Option.mem_def, reduceCtorEq, false_and, exists_false, false_or, false_iff, not_and]
    omega

theorem lt_of_exists_getElem? (h : ∃ a ∈ as[i]?, p a) : i < as.length := by
  obtain ⟨a, ha, -⟩ := h
  exact (List.getElem?_eq_some_iff.1 ha).1

/-- One element more is the first if none of the others is. -/
theorem firstAt_concat : FirstAt p (as ++ [a]) i ↔
    FirstAt p as i ∨ i = as.length ∧ p a ∧ ∀ other ∈ as, ¬ p other := by
  unfold FirstAt
  rw [exists_getElem?_concat]
  constructor
  · rintro ⟨h | ⟨rfl, ha⟩, hbefore⟩
    · rw [List.take_append_of_le_length (Nat.le_of_lt (lt_of_exists_getElem? h))] at hbefore
      exact .inl ⟨h, hbefore⟩
    · rw [List.take_left' rfl] at hbefore
      exact .inr ⟨rfl, ha, hbefore⟩
  · rintro (⟨h, hbefore⟩ | ⟨rfl, ha, hbefore⟩)
    · rw [List.take_append_of_le_length (Nat.le_of_lt (lt_of_exists_getElem? h))]
      exact ⟨.inl h, hbefore⟩
    · rw [List.take_left' rfl]
      exact ⟨.inr ⟨rfl, ha⟩, hbefore⟩

/-- One element more is the last, or the last one stays. -/
theorem lastAt_concat : LastAt p (as ++ [a]) i ↔
    i = as.length ∧ p a ∨ ¬ p a ∧ LastAt p as i := by
  unfold LastAt
  rw [exists_getElem?_concat]
  constructor
  · rintro ⟨h | ⟨rfl, ha⟩, hbehind⟩
    · rw [List.drop_append_of_le_length (lt_of_exists_getElem? h)] at hbehind
      exact .inr ⟨hbehind a (by simp), h, fun other hother =>
        hbehind other (List.mem_append_left _ hother)⟩
    · exact .inl ⟨rfl, ha⟩
  · rintro (⟨rfl, ha⟩ | ⟨ha, h, hbehind⟩)
    · refine ⟨.inr ⟨rfl, ha⟩, ?_⟩
      rw [List.drop_of_length_le (by simp)]
      exact fun other hother => absurd hother List.not_mem_nil
    · rw [List.drop_append_of_le_length (lt_of_exists_getElem? h)]
      refine ⟨.inl h, ?_⟩
      intro other hother
      rcases List.mem_append.1 hother with hother | hother
      · exact hbehind other hother
      · rw [List.mem_singleton.1 hother]
        exact ha

theorem exists_lastAt (h : ∃ a ∈ as, p a) : ∃ i, LastAt p as i := by
  induction as using List.reverseRecOn with
  | nil => simp at h
  | append_singleton as a ih =>
    by_cases ha : p a
    · exact ⟨as.length, lastAt_concat.2 (.inl ⟨rfl, ha⟩)⟩
    · obtain ⟨b, hb, hpb⟩ := h
      rcases List.mem_append.1 hb with hb | hb
      · obtain ⟨i, hi⟩ := ih ⟨b, hb, hpb⟩
        exact ⟨i, lastAt_concat.2 (.inr ⟨ha, hi⟩)⟩
      · rw [List.mem_singleton.1 hb] at hpb
        exact absurd hpb ha

theorem lastAt_map {p : β → Prop} (f : α → β) (as : List α) {i : Nat} :
    LastAt p (as.map f) i ↔ LastAt (fun a => p (f a)) as i := by
  simp [LastAt, ← List.map_drop]

end Positions

/-! ## Tables -/

/-- The entity without its supertypes. -/
def Entity.unwired (entity : Entity) : Entity :=
  { entity with parents := [] }

theorem Entity.unwired_addParents (entity : Entity) (parents : List EntityRef) :
    (entity.addParents parents).unwired = entity.unwired := by
  induction parents generalizing entity with
  | nil => rfl
  | cons parent parents ih =>
    refine (ih (entity.addParent parent)).trans ?_
    unfold addParent
    split <;> rfl

/-- Wiring changes supertypes only. -/
theorem Draft.map_unwired_wire (draft : Draft)
    (edges : List (Except Anomaly (Nat × EntityRef))) :
    (draft.wire edges).table.arena.toList.map Entity.unwired =
      draft.table.arena.toList.map Entity.unwired := by
  apply List.ext_getElem?
  intro slot
  rw [List.getElem?_map, List.getElem?_map, Array.getElem?_toList, Array.getElem?_toList,
    getElem?_wire, Option.map_map]
  congr 1
  funext entity
  exact entity.unwired_addParents (parentsIn slot edges)

/-- The entity is a type with this id. -/
def Entity.IsTypeOf (entity : Entity) (id : EntityId) : Prop :=
  entity.kind.isClassLike = true ∧ entity.id = id

instance (entity : Entity) (id : EntityId) : Decidable (entity.IsTypeOf id) :=
  inferInstanceAs (Decidable (entity.kind.isClassLike = true ∧ entity.id = id))

/-- The index by id is there and covers what was loaded since a slot. -/
structure Table.Covers (table : Table) (since : Nat) : Prop where
  tracks : table.typeSlots.isSome
  since_le : since ≤ table.size
  leads : ∀ id slot, table.typeSlot? id = some slot ↔
    since ≤ slot ∧ LastAt (·.IsTypeOf id) table.arena.toList slot

namespace Table.Covers

variable {table : Table} {draft : Draft} {since : Nat}

/-- An index that starts now covers nothing that is there already. -/
theorem ofUntracked (h : table.typeSlots = none) : table.trackIds.Covers table.size where
  tracks := rfl
  since_le := Nat.le_refl _
  leads id slot := by
    have hnone : table.trackIds.typeSlot? id = none := by simp [typeSlot?, Table.trackIds, h]
    rw [hnone]
    refine iff_of_false (by simp) ?_
    rintro ⟨hle, hlast⟩
    have hlt := lt_of_exists_getElem? hlast.1
    rw [Array.length_toList] at hlt
    exact absurd hle (Nat.not_le.2 hlt)

theorem trackIds (h : table.Covers since) : table.trackIds.Covers since := by
  rwa [trackIds_of_tracked h.tracks]

/-- A row more, if it is that of a type, is the last with its id. -/
theorem addRow (h : draft.table.Covers since) (origin : Origin) (row : EntityRow) :
    (draft.addRow origin row).table.Covers since := by
  obtain ⟨harena, htracks⟩ := Draft.table_addRow origin draft row
  have hsince : since ≤ draft.table.size := h.since_le
  refine ⟨htracks.trans h.tracks, ?_, ?_⟩
  · rw [Table.size, harena, Array.size_push]
    exact Nat.le_succ_of_le hsince
  intro id slot
  rw [Draft.typeSlot?_addRow origin draft row h.tracks, harena, Array.toList_push, lastAt_concat,
    Array.length_toList, Option.or_eq_some_iff, h.leads, and_or_left]
  have hrow : (row.entity origin).IsTypeOf id ↔ row.kind.isClassLike = true ∧ row.id = id :=
    Iff.rfl
  by_cases hid : row.kind.isClassLike = true ∧ row.id = id
  · simp only [hrow, hid, and_self, if_true, Option.some.injEq, and_true, not_true, false_and,
      and_false, or_false, reduceCtorEq, Table.size]
    constructor
    · rintro rfl
      exact ⟨hsince, rfl⟩
    · rintro ⟨-, rfl⟩
      rfl
  · simp only [hrow, hid, if_false, reduceCtorEq, false_or, and_false, not_false_eq_true, true_and]

theorem addRows (h : draft.table.Covers since) (origin : Origin) (rows : List EntityRow) :
    (rows.foldl (Draft.addRow origin) draft).table.Covers since := by
  induction rows generalizing draft with
  | nil => exact h
  | cons row rows ih => exact ih (h.addRow origin row)

/-- New parents leave the types and their ids. -/
theorem wire (h : draft.table.Covers since) (edges : List (Except Anomaly (Nat × EntityRef))) :
    (draft.wire edges).table.Covers since := by
  refine ⟨?_, ?_, ?_⟩
  · rw [Draft.typeSlots_wire]
    exact h.tracks
  · rw [Draft.size_wire]
    exact h.since_le
  · intro id slot
    rw [typeSlot?, Draft.typeSlots_wire]
    refine (h.leads id slot).trans ?_
    -- Whether an entity is the type with an id can be told without its parents.
    have hlast := lastAt_map (p := (·.IsTypeOf id)) Entity.unwired draft.table.arena.toList
      (i := slot)
    rw [← draft.map_unwired_wire edges, lastAt_map] at hlast
    exact and_congr_right fun _ => hlast.symm

theorem inherit_foldl (h : draft.table.Covers since) (toRef : Nat → EntityRef)
    (elsewhere : EntityId → Option EntityRef) (store : Store) (projects : List ProjectId) :
    (projects.foldl (Draft.inherit toRef elsewhere store) draft).table.Covers since := by
  induction projects generalizing draft with
  | nil => exact h
  | cons project projects ih => exact ih (h.wire _)

theorem declare_foldl (h : draft.table.Covers since) (store : Store)
    (projects : List ProjectId) :
    (projects.foldl (Draft.declare .library store) draft).table.Covers since := by
  rw [Draft.declare_foldl]
  exact h.addRows .library _

/-- A load covers what it loads. -/
theorem fill (h : draft.table.Covers since) (mode : Mode) (store : Store)
    (libraries : List ProjectId) : (draft.fill mode store libraries).table.Covers since := by
  have hdeclared := h.declare_foldl store libraries
  cases mode with
  | plain => exact hdeclared
  | «virtual» => exact hdeclared.inherit_foldl _ _ store libraries

/-- A load that fails covers what it loaded. -/
theorem partial_fill (h : draft.table.Covers since) {mode : Mode} {store : Store}
    {libraries : List ProjectId} {left : Draft}
    (hleft : Draft.Partial mode store libraries draft left) : left.table.Covers since := by
  cases hleft with
  | declarations _ => exact h.declare_foldl store _
  | inheritance _ _ => exact (h.declare_foldl store libraries).inherit_foldl _ _ store _

/-- An index leads to types with the id asked for, wherever it starts. -/
theorem exists_type (h : table.Covers since) {id : EntityId} {slot : Nat}
    (hslot : table.typeSlot? id = some slot) :
    ∃ entity, table.arena[slot]? = some entity ∧ entity.IsTypeOf id := by
  obtain ⟨-, ⟨entity, hentity, htype⟩, -⟩ := (h.leads id slot).1 hslot
  rw [Array.getElem?_toList] at hentity
  exact ⟨entity, hentity, htype⟩

/-- An index that covers the whole table leads from the id of each type. -/
theorem isSome_of_type (h : table.Covers 0) {id : EntityId} {slot : Nat} {entity : Entity}
    (hentity : table.arena[slot]? = some entity) (htype : entity.IsTypeOf id) :
    (table.typeSlot? id).isSome = true := by
  have hmem := Array.mem_toList_iff.2 (Array.mem_of_getElem? hentity)
  obtain ⟨last, hlast⟩ := exists_lastAt (p := (·.IsTypeOf id)) ⟨entity, hmem, htype⟩
  rw [(h.leads id last).2 ⟨Nat.zero_le _, hlast⟩]
  rfl

end Table.Covers

/-- A load tracks ids if they were tracked before. -/
theorem Draft.tracks_fill (draft : Draft) (mode : Mode) (store : Store)
    (libraries : List ProjectId) : (draft.fill mode store libraries).table.typeSlots.isSome =
      draft.table.typeSlots.isSome := by
  have hdeclared : (libraries.foldl (declare .library store) draft).table.typeSlots.isSome =
      draft.table.typeSlots.isSome := by
    rw [declare_foldl, tracks_addRows]
  cases mode with
  | plain => exact hdeclared
  | «virtual» =>
    rw [fill, typeSlots_inherit_foldl]
    exact hdeclared

/-- What a failed load leaves tracks ids if they were tracked before. -/
theorem Draft.Partial.tracks {mode : Mode} {store : Store} {libraries : List ProjectId}
    {draft left : Draft} (h : Draft.Partial mode store libraries draft left) :
    left.table.typeSlots.isSome = draft.table.typeSlots.isSome := by
  cases h with
  | declarations _ => rw [declare_foldl, tracks_addRows]
  | inheritance _ _ => rw [typeSlots_inherit_foldl, declare_foldl, tracks_addRows]

/-! ## Libraries -/

namespace LibraryModel

variable {model : LibraryModel}

theorem tracksIds_eq_false : model.tracksIds = false ↔ model.draft.table.typeSlots = none := by
  rw [tracksIds, Option.isSome_eq_false_iff, Option.isNone_iff_eq_none]

theorem Reached.covers (h : model.Reached) (htracks : model.tracksIds = true) :
    ∃ since, model.draft.table.Covers since := by
  induction h with
  | empty mode =>
    cases mode with
    | plain => cases htracks
    | «virtual» => exact ⟨_, .ofUntracked rfl⟩
  | @withCore model core _ _ _ ih =>
    show ∃ since, (prepare model.mode core.draft.table).Covers since
    replace htracks : (prepare model.mode core.draft.table).typeSlots.isSome = true := htracks
    cases hmode : model.mode with
    | plain =>
      rw [hmode] at htracks
      exact ih htracks
    | «virtual» =>
      cases hcore : core.tracksIds with
      | false => exact ⟨_, .ofUntracked (tracksIds_eq_false.1 hcore)⟩
      | true =>
        obtain ⟨since, hcovers⟩ := ih hcore
        exact ⟨since, hcovers.trackIds⟩
  | withRootType _ _ ih => exact ih htracks
  | @loaded model model' libraries desk desk' _ hload ih =>
    obtain ⟨rfl, -⟩ := load_eq_ok hload
    rw [tracksIds, Draft.tracks_fill] at htracks
    obtain ⟨since, hcovers⟩ := ih htracks
    exact ⟨since, hcovers.fill _ _ _⟩
  | @failed model model' libraries desk desk' err _ hload ih =>
    obtain ⟨left, hleft, rfl⟩ := load_eq_error hload
    rw [tracksIds, hleft.tracks] at htracks
    obtain ⟨since, hcovers⟩ := ih htracks
    exact ⟨since, hcovers.partial_fill hleft⟩
  | releaseIds _ _ => cases htracks

/-- A library that building in virtual mode can lead to without the index by id ever being given
up, by the library or by one that it started from. -/
inductive KeepsIndex : LibraryModel → Prop
  | empty : KeepsIndex (empty .virtual)
  | withCore {model core : LibraryModel} :
      model.mode = .virtual → KeepsIndex core → KeepsIndex (model.withCore core)
  | withRootType {model : LibraryModel} (rootType : String) :
      KeepsIndex model → KeepsIndex (model.withRootType rootType)
  | loaded {model model' : LibraryModel} {libraries : List ProjectId} {desk desk' : Desk} :
      KeepsIndex model → load libraries (model, desk) = .ok () (model', desk') → KeepsIndex model'
  | failed {model model' : LibraryModel} {libraries : List ProjectId} {desk desk' : Desk}
      {err : ModelError} : KeepsIndex model →
      load libraries (model, desk) = .error err (model', desk') → KeepsIndex model'

theorem keepsIndex_of_loaded {model' : LibraryModel} {libraries : List ProjectId}
    {desk desk' : Desk} (h : model.KeepsIndex)
    (hloaded : model.loaded libraries desk = .ok model' desk') : model'.KeepsIndex :=
  h.loaded (load_of_loaded hloaded)

theorem KeepsIndex.covers (h : model.KeepsIndex) : model.draft.table.Covers 0 := by
  induction h with
  | empty => exact .ofUntracked rfl
  | @withCore model core hmode _ ih =>
    show (prepare model.mode core.draft.table).Covers 0
    rw [hmode]
    exact ih.trackIds
  | withRootType _ _ ih => exact ih
  | @loaded model model' libraries desk desk' _ hload ih =>
    obtain ⟨rfl, -⟩ := load_eq_ok hload
    exact ih.fill _ _ _
  | @failed model model' libraries desk desk' err _ hload ih =>
    obtain ⟨left, hleft, rfl⟩ := load_eq_error hload
    exact ih.partial_fill hleft

/-- A library that can come about leads from an id to a type with this id. -/
theorem Reached.type_of_findById? (h : model.Reached) {id : EntityId} {ref : EntityRef}
    (hfind : model.findById? id = some ref) :
    ∃ entity, model.entity? ref = some entity ∧ entity.IsTypeOf id := by
  obtain ⟨slot, hslot, rfl⟩ := Option.map_eq_some_iff.1 hfind
  cases htracks : model.tracksIds with
  | false =>
    rw [Table.typeSlot?, tracksIds_eq_false.1 htracks] at hslot
    cases hslot
  | true =>
    obtain ⟨since, hcovers⟩ := h.covers htracks
    exact hcovers.exists_type hslot

/-- A library that kept its index leads from an id to the last type with this id. -/
theorem KeepsIndex.findById?_eq_some (h : model.KeepsIndex) {id : EntityId} {slot : Nat} :
    model.findById? id = some (.library slot) ↔
      LastAt (·.IsTypeOf id) model.draft.table.arena.toList slot := by
  have hleads := h.covers.leads id slot
  rw [and_iff_right (Nat.zero_le slot)] at hleads
  rw [← hleads, findById?, Option.map_eq_some_iff]
  simp

end LibraryModel

end Referent
