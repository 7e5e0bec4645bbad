import Referent.Proofs.SnapshotText

/-!
# Streamed reads

A store is read one project at a time, through indexes that lead from projects to rows. They say
nothing that the tables do not say already, so they have to be kept in step: whatever adds a row
enters its position for the project of the row, and nothing else changes an index. The positions
of a project are then those of its rows, each once and in the order of insertion
(`RowIndex.Exact`), however the rows of several projects are mixed and whatever has been refused
or loaded in between. So a streamed read shows what a pass over the whole table would show
(`Store.streaming_is_scanning`).
-/

namespace Referent

namespace RowIndex

variable {index : RowIndex} {key : α → ProjectId} {table : Array α}

/-- An index has for a project the positions of its rows and no others, in order. -/
structure Exact (index : RowIndex) (key : α → ProjectId) (table : Array α) : Prop where
  mem : ∀ project position, position ∈ (index.rows project).toList ↔
    ∃ row, table[position]? = some row ∧ key row = project
  sorted : ∀ project, (index.rows project).toList.Pairwise (· < ·)

theorem Exact.empty (key : α → ProjectId) : Exact {} key #[] where
  mem project position := by simp [rows]
  sorted project := by simp [rows]

theorem Exact.lt_size (h : Exact index key table) {project : ProjectId} {position : Nat}
    (hposition : position ∈ (index.rows project).toList) : position < table.size := by
  obtain ⟨row, hrow, -⟩ := (h.mem project position).1 hposition
  exact (Array.getElem?_eq_some_iff.1 hrow).1

theorem mem_rows_enter (index : RowIndex) (owner project : ProjectId) (last position : Nat) :
    position ∈ ((index.enter owner last).rows project).toList ↔
      position ∈ (index.rows project).toList ∨ owner = project ∧ position = last := by
  rw [rows_enter]
  split
  · rename_i heq
    rw [Array.toList_push, List.mem_append, List.mem_singleton, heq]
    simp
  · rename_i hne
    simp [hne]

/-- A new row stands behind all others, in the table and in the positions of its project. -/
theorem Exact.push (h : Exact index key table) (row : α) :
    Exact (index.enter (key row) table.size) key (table.push row) where
  mem project position := by
    rw [mem_rows_enter, Array.getElem?_push]
    split
    · rename_i hlast
      subst hlast
      constructor
      · rintro (hold | ⟨hkey, -⟩)
        · exact absurd (h.lt_size hold) (Nat.lt_irrefl _)
        · exact ⟨row, rfl, hkey⟩
      · rintro ⟨other, hother, hkey⟩
        cases hother
        exact .inr ⟨hkey, rfl⟩
    · rename_i hearly
      rw [h.mem]
      exact or_iff_left fun hnew => hearly hnew.2
  sorted project := by
    rw [rows_enter]
    split
    · rw [Array.toList_push, List.pairwise_append]
      refine ⟨h.sorted _, List.pairwise_singleton _ _, fun early hearly late hlate => ?_⟩
      rw [List.mem_singleton.1 hlate]
      exact h.lt_size hearly
    · exact h.sorted project

end RowIndex

namespace Store

/-- Both indexes are exact. -/
structure Exact (store : Store) : Prop where
  entities : store.entityIndex.Exact (·.project) store.entities
  relations : store.relationIndex.Exact (·.project) store.relations

/-- However rows have entered a store, they have entered its indexes too. -/
theorem Reached.exact {store : Store} (h : store.Reached) : store.Exact := by
  induction h with
  | empty => exact ⟨.empty _, .empty _⟩
  | @push store store' row _ hpush ih =>
    obtain ⟨-, -, rfl⟩ := push_eq_ok hpush
    exact ⟨ih.entities.push row, ih.relations⟩
  | relate row _ ih => exact ⟨ih.entities, ih.relations.push row⟩

/-- Streaming is scanning. However a store came about, a streamed read shows the rows of the project
with one of the kinds, as a filter over the full table finds them: each once and in the order of
insertion. The positions that the indexes have for the project lie within the tables, and they are
those of its rows, in increasing order. -/
theorem streaming_is_scanning (actions : List Action) (project : ProjectId) :
    let store := actions.foldl act {}
    (∀ kinds, store.entitiesOf project kinds = store.entities.toList.filter fun row =>
      row.project = project ∧ kinds.contains row.kind) ∧
    (∀ kinds, store.relationsOf project kinds = store.relations.toList.filter fun row =>
      row.project = project ∧ kinds.contains row.kind) ∧
    (∀ position ∈ (store.entityIndex.rows project).toList, position < store.entities.size) ∧
    (∀ position ∈ (store.relationIndex.rows project).toList, position < store.relations.size) ∧
    store.Exact := by
  intro store
  have hreached : store.Reached := Reached.empty.foldl_act actions
  have hexact := hreached.exact
  refine ⟨hreached.sound.entitiesOf_eq project, hreached.sound.relationsOf_eq project,
    fun position hposition => hexact.entities.lt_size hposition,
    fun position hposition => hexact.relations.lt_size hposition, hexact⟩

/-- Two projects take turns, and a relation stands between. -/
example :
    let entry (project : UInt32) (name : String) (kind : EntityKind) : Action :=
      .insert { project := ⟨project⟩, name, kind }
    let store := [entry 1 "a.A" .class, entry 2 "b.B" .class,
      .relate { kind := .extends, left := ⟨1⟩, right := ⟨2⟩, project := ⟨1⟩, origin := .library },
      .load "no snapshot", entry 1 "a.A.m()" .method, entry 1 "a.C" .class].foldl act {}
    (store.entitiesOf ⟨1⟩ [.class]).map (·.name) = ["a.A", "a.C"] ∧
      store.entityIndex.rows ⟨1⟩ = #[0, 2, 3] := by
  decide +kernel

end Store

end Referent
