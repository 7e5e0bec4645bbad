import Referent.Proofs.Wiring

/-!
# The index by id is sound and complete

While a table tracks ids, its index leads from the id of every class-like entity to an entity
with that id, and leads nowhere else (`Table.Indexed`). Adding rows keeps it so, as each
class-like row enters the index with its slot, and wiring keeps it so, as it adds parents only.
Loading libraries therefore keeps a draft indexed (`Draft.fill_indexed`), and a virtual library
starts out so, be it empty or on top of another one (`LibraryModel.seeded_indexed`).
-/

namespace Referent

/-- The index by id is there, finds every class-like entity and finds nothing else. -/
structure Table.Indexed (table : Table) : Prop where
  tracks : table.typeSlots.isSome
  finds : ∀ (slot : Nat) (entity : Entity), table.arena[slot]? = some entity →
    entity.kind.isClassLike → (table.typeSlot? entity.id).isSome
  leads : ∀ (id : EntityId) (slot : Nat), table.typeSlot? id = some slot →
    ∃ entity, table.arena[slot]? = some entity ∧ entity.kind.isClassLike ∧ entity.id = id

namespace Table

theorem Indexed.empty : ({} : Table).trackIds.Indexed where
  tracks := rfl
  finds slot entity h := by simp [trackIds] at h
  leads id slot h := by simp [typeSlot?, trackIds] at h

/-- To track ids that are tracked changes nothing. -/
theorem Indexed.trackIds {table : Table} (h : table.Indexed) : table.trackIds.Indexed := by
  obtain ⟨typeSlots, htracked⟩ := Option.isSome_iff_exists.1 h.tracks
  have hsame : table.trackIds = table := by
    rw [Table.trackIds, htracked, Option.getD_some, ← htracked]
  rwa [hsame]

/-- A class-like entity enters the index, and what was in the index keeps its slot unless the
id is the same. -/
theorem Indexed.addRow {draft : Draft} (h : draft.table.Indexed) (origin : Origin)
    (row : EntityRow) : (draft.addRow origin row).table.Indexed := by
  obtain ⟨harena, htracks⟩ := Draft.table_addRow origin draft row
  have hslot := Draft.typeSlot?_addRow origin draft row h.tracks
  -- The slot behind the last one is the row's; all others are as before.
  refine ⟨htracks.trans h.tracks, ?_, ?_⟩
  · intro slot entity hentity hclass
    rw [hslot, Option.isSome_or, Bool.or_eq_true]
    rw [harena, Array.getElem?_push] at hentity
    by_cases hnew : slot = draft.table.arena.size
    · rw [if_pos hnew] at hentity
      cases hentity
      exact .inl (by simpa [EntityRow.entity] using hclass)
    · rw [if_neg hnew] at hentity
      exact .inr (h.finds slot entity hentity hclass)
  · intro id slot hfound
    rw [hslot, Option.or_eq_some_iff] at hfound
    rw [harena, Array.getElem?_push]
    rcases hfound with hfound | ⟨-, hfound⟩
    · rw [Option.ite_none_right_eq_some] at hfound
      obtain ⟨⟨hclass, hid⟩, hnew⟩ := hfound
      cases hnew
      rw [if_pos (show draft.table.size = draft.table.arena.size from rfl)]
      exact ⟨row.entity origin, rfl, hclass, hid⟩
    · obtain ⟨entity, hentity, hrest⟩ := h.leads id slot hfound
      obtain ⟨hlt, -⟩ := Array.getElem?_eq_some_iff.1 hentity
      rw [if_neg (by omega)]
      exact ⟨entity, hentity, hrest⟩

/-- New parents change no kind and no id. -/
theorem Indexed.wire {draft : Draft} (h : draft.table.Indexed)
    (edges : List (Except Anomaly (Nat × EntityRef))) : (draft.wire edges).table.Indexed := by
  have hslot : (draft.wire edges).table.typeSlot? = draft.table.typeSlot? := by
    funext id
    rw [typeSlot?, typeSlot?, Draft.typeSlots_wire]
  refine ⟨?_, ?_, ?_⟩
  · rw [Draft.typeSlots_wire]
    exact h.tracks
  · intro slot entity hentity hclass
    rw [Draft.getElem?_wire] at hentity
    obtain ⟨old, hold, rfl⟩ := Option.map_eq_some_iff.1 hentity
    obtain ⟨-, hkind, hid⟩ := old.addParents_fields (parentsIn slot edges)
    rw [hkind] at hclass
    rw [hslot, hid]
    exact h.finds slot old hold hclass
  · intro id slot hfound
    rw [hslot] at hfound
    obtain ⟨entity, hentity, hclass, hid⟩ := h.leads id slot hfound
    obtain ⟨-, hkind', hid'⟩ := entity.addParents_fields (parentsIn slot edges)
    refine ⟨entity.addParents (parentsIn slot edges), ?_, ?_, ?_⟩
    · rw [Draft.getElem?_wire, hentity, Option.map_some]
    · rwa [hkind']
    · rwa [hid']

end Table

namespace Draft

theorem declare_indexed {draft : Draft} (h : draft.table.Indexed) (origin : Origin)
    (store : Store) (project : ProjectId) :
    (draft.declare origin store project).table.Indexed := by
  unfold declare
  induction store.entitiesOf project EntityKind.declared generalizing draft with
  | nil => exact h
  | cons row rows ih => exact ih (h.addRow origin row)

/-- Loading libraries keeps the index in order. -/
theorem fill_indexed {draft : Draft} (h : draft.table.Indexed) (mode : Mode) (store : Store)
    (libraries : List ProjectId) : (draft.fill mode store libraries).table.Indexed := by
  -- The passes run one after the other, each over the whole list.
  have hdeclared : (libraries.foldl (declare .library store) draft).table.Indexed := by
    induction libraries generalizing draft with
    | nil => exact h
    | cons library libraries ih => exact ih (declare_indexed h .library store library)
  cases mode with
  | plain => exact hdeclared
  | «virtual» =>
    unfold fill
    simp only
    generalize libraries.foldl (declare .library store) draft = declared at hdeclared ⊢
    induction libraries generalizing declared with
    | nil => exact hdeclared
    | cons library libraries ih => exact ih _ (hdeclared.wire _)

end Draft

namespace LibraryModel

/-- The index by id of a library is sound and complete. -/
def Indexed (model : LibraryModel) : Prop :=
  model.draft.table.Indexed

theorem empty_indexed : (empty .virtual).Indexed :=
  Table.Indexed.empty

theorem seeded_indexed {core : LibraryModel} (h : core.Indexed) :
    (seeded .virtual core).Indexed :=
  Table.Indexed.trackIds h

end LibraryModel

end Referent
