import Referent.Corpus.Snapshot
import Referent.Proofs.Store

/-!
# Snapshots restore stores

A snapshot holds rows and nothing else: the positions by project, the set of ids and the next
id are found anew when it is loaded. The two tables share none of these, so an entity row may as
well enter before the relation rows that were there first (`push_relate`), and loading all rows,
entities first, ends in the very store that they were taken from.
-/

namespace Referent.Store

/-! ## Loading goes through insertions -/

theorem reached_of_foldlM_push {rows : List EntityRow} {store filled : Store}
    (hstore : store.Reached) (h : rows.foldlM push store = .ok filled) : filled.Reached := by
  induction rows generalizing store with
  | nil =>
    cases h
    exact hstore
  | cons row rows ih =>
    rw [List.foldlM_cons] at h
    cases hpush : store.push row with
    | error cause =>
      rw [hpush] at h
      cases h
    | ok next =>
      rw [hpush] at h
      exact ih (hstore.push hpush) h

theorem reached_foldl_relate {store : Store} (hstore : store.Reached)
    (links : List RelationRow) : (links.foldl relate store).Reached := by
  induction links generalizing store with
  | nil => exact hstore
  | cons link links ih => exact ih (hstore.relate link)

/-- Loading a snapshot enters its entity rows and then its relation rows. -/
theorem ofSnapshot_eq_ok {snapshot : Snapshot} {store : Store} :
    ofSnapshot snapshot = .ok store ↔
      snapshot.version = Snapshot.supportedVersion ∧
      ∃ filled, snapshot.entities.foldlM push {} = .ok filled ∧
        snapshot.relations.foldl relate filled = store := by
  unfold ofSnapshot
  split
  · rename_i hversion
    simp [hversion]
  · rename_i hversion
    simp only [ne_eq, Decidable.not_not] at hversion
    cases snapshot.entities.foldlM push {} with
    | error cause => simp [bind, Except.bind]
    | ok filled => simp [bind, Except.bind, pure, Except.pure, hversion]

/-- A store that is loaded is built up by insertions. -/
theorem reached_of_ofSnapshot {snapshot : Snapshot} {store : Store}
    (h : ofSnapshot snapshot = .ok store) : store.Reached := by
  obtain ⟨-, filled, hfilled, rfl⟩ := ofSnapshot_eq_ok.1 h
  exact reached_foldl_relate (reached_of_foldlM_push .empty hfilled) _

theorem reached_of_ofText {text : String} {store : Store} (h : ofText text = .ok store) :
    store.Reached := by
  unfold ofText at h
  split at h
  · cases h
  · unfold ofDocument at h
    split at h
    · cases h
    · exact reached_of_ofSnapshot h

/-! ## Loading undoes saving -/

theorem push_relate (store : Store) (row : EntityRow) (link : RelationRow) :
    (store.relate link).push row = (store.push row).map (relate · link) := by
  by_cases hlast : row.id.val = lastWord
  · simp only [push, hlast, if_true]
    rfl
  · by_cases hnew : store.ids.contains row.id
    · simp only [push, relate, hlast, hnew, if_true, if_false]
      rfl
    · simp only [push, relate, hlast, hnew, if_false]
      rfl

theorem push_foldl_relate (store : Store) (row : EntityRow) (links : List RelationRow) :
    (links.foldl relate store).push row =
      (store.push row).map fun pushed => links.foldl relate pushed := by
  induction links generalizing store with
  | nil =>
    rw [List.foldl_nil]
    cases store.push row <;> rfl
  | cons link links ih =>
    rw [List.foldl_cons, ih, push_relate]
    cases store.push row <;> rfl

/-- Loading the snapshot of a store gives the store itself, its indexes and next id included. -/
theorem ofSnapshot_snapshot {store : Store} (h : store.Reached) :
    ofSnapshot store.snapshot = .ok store := by
  rw [ofSnapshot_eq_ok]
  refine ⟨rfl, ?_⟩
  simp only [snapshot]
  induction h with
  | empty => exact ⟨{}, rfl, rfl⟩
  | @push store store' row _ hpush ih =>
    obtain ⟨filled, hfilled, hlinks⟩ := ih
    have hcommute := push_foldl_relate filled row store.relations.toList
    rw [hlinks, hpush] at hcommute
    obtain ⟨-, -, hstore'⟩ := push_eq_ok hpush
    cases hpushed : filled.push row with
    | error cause => simp [hpushed, Except.map] at hcommute
    | ok pushed =>
      rw [hpushed] at hcommute
      refine ⟨pushed, ?_, ?_⟩
      · rw [hstore', Array.toList_push, List.foldlM_append, hfilled]
        show [row].foldlM Store.push filled = .ok pushed
        rw [List.foldlM_cons, hpushed]
        rfl
      · rw [show store'.relations = store.relations by rw [hstore']]
        exact (Except.ok.inj hcommute).symm
  | @relate store link _ ih =>
    obtain ⟨filled, hfilled, hlinks⟩ := ih
    refine ⟨filled, hfilled, ?_⟩
    rw [show (store.relate link).relations.toList = store.relations.toList ++ [link] from
      Array.toList_push, List.foldl_append, hlinks]
    rfl

end Referent.Store
