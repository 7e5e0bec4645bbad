import Mathlib.Data.List.Induction
import Referent.Proofs.Restoring

/-!
# Ids are fresh

The next id is one more than the largest id of any row, and at least 1 (`Store.nextId_eq`). This
survives every way that rows get in: an insertion takes the next id itself, and a snapshot may
bring ids in any order, since the next id only ever grows. An insertion is refused when nothing
is left behind the next id, which is when the last id but one is present.

`Insertions` are the calls that write, refused ones among them, with the ids they handed out.
-/

namespace Referent

namespace Store

/-- The last id that a row may have. -/
def lastId : EntityId :=
  ⟨4294967294⟩

/-- One more than the largest of some ids, and at least 1. -/
def firstFree (ids : List EntityId) : Nat :=
  (ids.map fun id => id.val.toNat + 1).foldl max 1

theorem firstFree_concat (ids : List EntityId) (id : EntityId) :
    firstFree (ids ++ [id]) = max (firstFree ids) (id.val.toNat + 1) := by
  simp [firstFree, List.foldl_append]

/-- The first free id is behind all ids, and right behind one of them unless it is 1. -/
theorem firstFree_spec (ids : List EntityId) :
    (∀ id ∈ ids, id.val.toNat < firstFree ids) ∧
      (firstFree ids = 1 ∨ ∃ id ∈ ids, firstFree ids = id.val.toNat + 1) := by
  induction ids using List.reverseRecOn with
  | nil => exact ⟨by simp, .inl rfl⟩
  | append_singleton ids id ih =>
    obtain ⟨hbehind, hright⟩ := ih
    rw [firstFree_concat]
    constructor
    · intro other hother
      rcases List.mem_append.1 hother with hother | hother
      · have := hbehind other hother
        omega
      · rw [List.mem_singleton.1 hother]
        omega
    · rcases Nat.le_total (id.val.toNat + 1) (firstFree ids) with hle | hle
      · rw [Nat.max_eq_left hle]
        refine hright.imp_right ?_
        rintro ⟨other, hother, heq⟩
        exact ⟨other, List.mem_append_left _ hother, heq⟩
      · rw [Nat.max_eq_right hle]
        exact .inr ⟨id, by simp, rfl⟩

theorem toNat_max (a b : UInt32) : (max a b).toNat = max a.toNat b.toNat := by
  show (if a ≤ b then b else a).toNat = _
  split
  · rename_i hle
    exact (Nat.max_eq_right (UInt32.le_iff_toNat_le.1 hle)).symm
  · rename_i hle
    have := mt UInt32.le_iff_toNat_le.2 hle
    omega

/-- The ids of the rows. -/
def rowIds (store : Store) : List EntityId :=
  store.entities.toList.map (·.id)

theorem nextId_eq {store : Store} (h : store.Reached) :
    store.nextId.toNat = firstFree store.rowIds := by
  induction h with
  | empty => rfl
  | @push store store' row _ hpush ih =>
    obtain ⟨hlast, -, rfl⟩ := push_eq_ok hpush
    have hsucc : (row.id.val + 1).toNat = row.id.val.toNat + 1 := by
      have hne : row.id.val.toNat ≠ 4294967295 := fun heq => hlast (UInt32.toNat_inj.1 heq)
      have hlt := row.id.val.toNat_lt
      rw [UInt32.toNat_add, UInt32.toNat_one]
      omega
    rw [rowIds, Array.toList_push, List.map_append, List.map_singleton, firstFree_concat,
      toNat_max, hsucc, ih, rowIds]
  | relate link _ ih => exact ih

/-- No id is left exactly if the last one is taken. -/
theorem nextId_eq_lastWord_iff {store : Store} (h : store.Reached) :
    store.nextId = lastWord ↔ lastId ∈ store.rowIds := by
  obtain ⟨hbehind, hright⟩ := firstFree_spec store.rowIds
  rw [← nextId_eq h] at hbehind hright
  constructor
  · intro hfull
    have hnext : store.nextId.toNat = 4294967295 := by
      rw [hfull]
      rfl
    rcases hright with hone | ⟨id, hid, heq⟩
    · omega
    · have hval : id.val = lastId.val := by
        apply UInt32.toNat_inj.1
        show id.val.toNat = 4294967294
        omega
      have hsame : id = lastId := congrArg EntityId.mk hval
      exact hsame ▸ hid
  · intro hid
    have hlt := hbehind lastId hid
    have hsize := store.nextId.toNat_lt
    have hlast : lastId.val.toNat = 4294967294 := rfl
    apply UInt32.toNat_inj.1
    show store.nextId.toNat = 4294967295
    omega

end Store

/-! ## Insertions -/

/-- `Insertions start issued access` — insertions, refused ones among them, lead from the store
`start` to `access` and hand out the ids `issued`, the last one first. -/
inductive Insertions (start : Store) : List EntityId → Access → Prop
  | start : Insertions start [] { store := start }
  | issued {issued : List EntityId} {access after : Access} {entry : Entry} {id : EntityId} :
      Insertions start issued access → access.insert entry = (.ok id, after) →
      Insertions start (id :: issued) after
  | refused {issued : List EntityId} {access after : Access} {entry : Entry}
      {cause : StoreError} : Insertions start issued access →
      access.insert entry = (.error cause, after) → Insertions start issued after
  | related {issued : List EntityId} {access : Access} (row : RelationRow) :
      Insertions start issued access → Insertions start issued (access.relate row).2

namespace Insertions

open Store (lastId firstFree)

variable {start : Store} {issued : List EntityId} {access : Access}

theorem plan_eq (h : Insertions start issued access) : access.plan = .none := by
  induction h with
  | start => rfl
  | @issued _ before after entry _ _ hinsert ih =>
    have hplan : (before.insert entry).2.plan = before.plan := before.plan_call _ _
    rw [hinsert] at hplan
    exact hplan.trans ih
  | @refused _ before after entry _ _ hinsert ih =>
    have hplan : (before.insert entry).2.plan = before.plan := before.plan_call _ _
    rw [hinsert] at hplan
    exact hplan.trans ih
  | @related _ before _ _ ih => exact (before.plan_call .insertRelation _).trans ih

/-- One insertion after the other builds the store up, and an id that was handed out stays the
id of a row. -/
theorem keeps (hstart : start.Reached) (h : Insertions start issued access) :
    access.store.Reached ∧ ∀ id ∈ issued, id ∈ access.store.rowIds := by
  induction h with
  | start => exact ⟨hstart, by simp⟩
  | @issued _ before after entry id _ hinsert ih =>
    obtain ⟨hreached, hissued⟩ := ih
    rcases before.insert_cases entry with ⟨_, hid, hstored⟩ | ⟨_, herror, -⟩
    · rw [hinsert] at hid hstored
      cases hid
      have hinserted := Store.inserted_of_insert hreached.sound hstored
      refine ⟨hinserted.reached hreached, fun other hother => ?_⟩
      rw [Store.rowIds, hinserted.entities, Array.toList_push, List.map_append, List.mem_append]
      rcases List.mem_cons.1 hother with rfl | hother
      · exact .inr (List.mem_singleton.2 rfl)
      · exact .inl (hissued other hother)
    · rw [hinsert] at herror
      cases herror
  | @refused _ before after entry cause _ hinsert ih =>
    rcases before.insert_cases entry with ⟨_, hid, -⟩ | ⟨_, -, hstored⟩
    · rw [hinsert] at hid
      cases hid
    · rw [hinsert] at hstored
      simp only at hstored
      rwa [hstored]
  | @related _ before row _ ih =>
    rcases before.relate_cases row with ⟨-, hstored⟩ | ⟨_, -, hstored⟩
    · rw [hstored]
      exact ⟨ih.1.relate row, ih.2⟩
    · rwa [hstored]

/-- **Fresh ids.** Whatever insertions have led here from a new or a loaded store, no two rows
share an id, and the next id is one more than the largest, at least 1. Unless the last id is
taken, an insertion adds its row under an id beyond all that are present, so it is neither 0 nor
one that was handed out before. Once it is taken, every insertion is refused because the ids are
used up, and nothing changes. -/
theorem ids_fresh (hstart : start = {} ∨ ∃ snapshot, Store.ofSnapshot snapshot = .ok start)
    (h : Insertions start issued access) :
    access.store.rowIds.Nodup ∧
    access.store.nextId.toNat = firstFree access.store.rowIds ∧
    (lastId ∉ access.store.rowIds → ∀ entry, ∃ id after,
      access.insert entry = (.ok id, after) ∧
        after.store.entities = access.store.entities.push { entry with id } ∧
        (∀ present ∈ access.store.rowIds, present.val < id.val) ∧ id.val ≠ 0 ∧ id ∉ issued) ∧
    (lastId ∈ access.store.rowIds → ∀ entry, ∃ after,
      access.insert entry = (.error .idsExhausted, after) ∧ after.store = access.store) := by
  have hreached : start.Reached := by
    rcases hstart with rfl | ⟨snapshot, hsnapshot⟩
    · exact .empty
    · exact Store.reached_of_ofSnapshot hsnapshot
  obtain ⟨hstore, hissued⟩ := h.keeps hreached
  have hnext := Store.nextId_eq hstore
  obtain ⟨hbehind, hright⟩ := Store.firstFree_spec access.store.rowIds
  have hfull := Store.nextId_eq_lastWord_iff hstore
  refine ⟨hstore.sound.nodup, hnext, fun hfree entry => ?_, fun htaken entry => ?_⟩
  · rcases access.insert_unless_full hstore h.plan_eq entry with
      ⟨-, after, hrun, hinserted, -⟩ | ⟨hlast, -⟩
    · have hbeyond : ∀ present ∈ access.store.rowIds, present.val < access.store.nextId := by
        intro present hpresent
        rw [UInt32.lt_iff_toNat_lt, hnext]
        exact hbehind present hpresent
      refine ⟨_, after, hrun, hinserted.entities, hbeyond, ?_, fun hid => ?_⟩
      · intro hzero
        rw [show access.store.nextId = 0 from hzero] at hnext
        have : firstFree access.store.rowIds = 0 := hnext.symm
        rcases hright with hone | ⟨id, -, hid⟩ <;> omega
      · exact UInt32.lt_irrefl _ (hbeyond _ (hissued _ hid))
    · exact absurd (hfull.1 hlast) hfree
  · rcases access.insert_unless_full hstore h.plan_eq entry with
      ⟨hroom, -⟩ | ⟨-, after, hrun, hsame, -⟩
    · exact absurd (hfull.2 htaken) hroom
    · exact ⟨after, hrun, hsame⟩

/-- A loaded store with one id left: it is handed out, and then every insertion is refused. -/
theorem last_id_handed_out :
    let start := Store.ofRows
      [{ project := ⟨1⟩, name := "a.A", kind := .class, id := ⟨4294967293⟩ },
       { project := ⟨1⟩, name := "a.B", kind := .class, id := ⟨0⟩ }]
    (∃ snapshot, Store.ofSnapshot snapshot = .ok start) ∧
    ∃ access, Insertions start [lastId] access ∧
      access.store.rowIds = [⟨4294967293⟩, ⟨0⟩, lastId] ∧
      ∀ entry, ∃ after, access.insert entry = (.error .idsExhausted, after) ∧
        after.store = access.store := by
  intro start
  have hreached : start.Reached := Store.reached_ofRows _
  have hloaded : ∃ snapshot, Store.ofSnapshot snapshot = .ok start :=
    ⟨start.snapshot, Store.ofSnapshot_snapshot hreached⟩
  have hnext : start.nextId = lastId.val := by decide +kernel
  have hids : start.rowIds = [⟨4294967293⟩, ⟨0⟩] := by decide +kernel
  let entry : Entry := { project := ⟨1⟩, name := "a.C", kind := .class }
  obtain ⟨-, after, hrun, hinserted, -⟩ | ⟨hlast, -⟩ :=
    ({ store := start } : Access).insert_unless_full hreached rfl entry
  · have hafter : Insertions start [lastId] after := .issued .start (by rw [hrun, hnext])
    have hrows : after.store.rowIds = [⟨4294967293⟩, ⟨0⟩, lastId] := by
      rw [Store.rowIds, hinserted.entities, Array.toList_push, List.map_append]
      show start.rowIds ++ [⟨start.nextId⟩] = _
      rw [hids, hnext]
      rfl
    refine ⟨hloaded, after, hafter, hrows, ?_⟩
    exact (hafter.ids_fresh (.inr hloaded)).2.2.2 (by rw [hrows]; simp)
  · rw [hnext] at hlast
    exact absurd hlast (by decide)

end Insertions

end Referent
