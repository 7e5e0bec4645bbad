import Mathlib.Data.List.Nodup
import Referent.Corpus.Access

/-!
# What every store keeps

A store is built up by insertions alone, loading a snapshot included, and insertions keep the
tables and their indexes in step (`Store.Sound`): ids are pairwise distinct and below the next
id, and a streamed read shows exactly the rows that a pass over the whole table would show.

The four calls of models are then said through what they do to the tables: an insertion that
succeeds adds one row at the end under an id that no row had, and a call that fails leaves both
tables alone.
-/

namespace Referent

/-! ## Indexes -/

namespace RowIndex

theorem rows_enter (index : RowIndex) (project other : ProjectId) (position : Nat) :
    (index.enter project position).rows other =
      if project = other then (index.rows project).push position else index.rows other := by
  rw [rows, enter, Std.TreeMap.getD_alter]
  by_cases h : project = other
  · subst h
    simp [rows, Std.TreeMap.getD_eq_getD_getElem?]
  · have : compare project other ≠ .eq := fun heq => h (Std.LawfulEqOrd.eq_of_compare heq)
    simp [h, this, rows]

/-- An index is in step with a table: its positions lie in the table, and the rows they lead
to are those of the project, in order. -/
structure Indexes (index : RowIndex) (key : α → ProjectId) (table : Array α) : Prop where
  bound : ∀ project, ∀ position ∈ (index.rows project).toList, position < table.size
  read : ∀ project, (index.rows project).toList.filterMap (table[·]?) =
    table.toList.filter (key · = project)

theorem Indexes.empty (key : α → ProjectId) : Indexes {} key #[] := by
  constructor
  · intro project position h
    simp [rows] at h
  · intro project
    rfl

theorem Indexes.push {index : RowIndex} {key : α → ProjectId} {table : Array α}
    (h : Indexes index key table) (row : α) :
    Indexes (index.enter (key row) table.size) key (table.push row) := by
  have hold (project : ProjectId) :
      (index.rows project).toList.filterMap ((table.push row)[·]?) =
        table.toList.filter (key · = project) := by
    rw [← h.read project]
    apply List.filterMap_congr
    intro position hposition
    have := h.bound project position hposition
    rw [Array.getElem?_push, if_neg (by omega)]
  constructor
  · intro project position hposition
    rw [Array.size_push]
    rw [rows_enter] at hposition
    split at hposition
    · rw [Array.toList_push, List.mem_append, List.mem_singleton] at hposition
      rcases hposition with hposition | rfl
      · exact Nat.lt_succ_of_lt (h.bound _ _ hposition)
      · exact Nat.lt_succ_self _
    · exact Nat.lt_succ_of_lt (h.bound _ _ hposition)
  · intro project
    rw [rows_enter, Array.toList_push, List.filter_append]
    split
    · rename_i heq
      rw [Array.toList_push, List.filterMap_append, hold, ← heq]
      simp
    · rename_i hne
      rw [hold]
      simp [hne]

end RowIndex

/-! ## Stores -/

namespace Store

/-- What insertions keep. -/
structure Sound (store : Store) : Prop where
  nodup : (store.entities.toList.map (·.id)).Nodup
  mem_ids : ∀ id, store.ids.contains id = true ↔ id ∈ store.entities.toList.map (·.id)
  fresh : ∀ row ∈ store.entities.toList, row.id.val < store.nextId
  entities : store.entityIndex.Indexes (·.project) store.entities
  relations : store.relationIndex.Indexes (·.project) store.relations

/-- A store that insertions have built up from nothing. -/
inductive Reached : Store → Prop
  | empty : Reached {}
  | push {store store' : Store} {row : EntityRow} :
      Reached store → store.push row = .ok store' → Reached store'
  | relate {store : Store} (row : RelationRow) : Reached store → Reached (store.relate row)

theorem Sound.empty : Sound {} where
  nodup := List.nodup_nil
  mem_ids id := by simp
  fresh row h := by simp at h
  entities := .empty _
  relations := .empty _

/-- An id that may be in the store leaves room for the next one. -/
theorem val_lt_succ {word : UInt32} (h : word ≠ lastWord) : word < word + 1 := by
  have hne : word.toNat ≠ 4294967295 := fun heq => h (UInt32.toNat_inj.1 heq)
  have hlt := word.toNat_lt
  rw [UInt32.lt_iff_toNat_lt, UInt32.toNat_add, UInt32.toNat_one]
  omega

theorem lt_max_of_lt {a b c : UInt32} (h : a < b ∨ a < c) : a < max b c := by
  show a < if b ≤ c then c else b
  split
  · rename_i hle
    rw [UInt32.lt_iff_toNat_lt, UInt32.lt_iff_toNat_lt] at h
    rw [UInt32.le_iff_toNat_le] at hle
    rw [UInt32.lt_iff_toNat_lt]
    omega
  · rename_i hle
    rw [UInt32.lt_iff_toNat_lt, UInt32.lt_iff_toNat_lt] at h
    rw [UInt32.le_iff_toNat_le] at hle
    rw [UInt32.lt_iff_toNat_lt]
    omega

/-- What an insertion that succeeds has checked, and its result. -/
theorem push_eq_ok {store store' : Store} {row : EntityRow} (h : store.push row = .ok store') :
    row.id.val ≠ lastWord ∧ store.ids.contains row.id = false ∧
      store' = { store with
        entities := store.entities.push row
        entityIndex := store.entityIndex.enter row.project store.entities.size
        ids := store.ids.insert row.id
        nextId := max store.nextId (row.id.val + 1) } := by
  unfold push at h
  split at h
  · simp at h
  · rename_i hlast
    split at h
    · simp at h
    · rename_i hnew
      exact ⟨hlast, Bool.eq_false_iff.2 hnew, (Except.ok.inj h).symm⟩

theorem Sound.push {store store' : Store} {row : EntityRow} (hs : store.Sound)
    (h : store.push row = .ok store') : store'.Sound := by
  obtain ⟨hlast, hnew, rfl⟩ := push_eq_ok h
  have hnotMem : row.id ∉ store.entities.toList.map (·.id) := by
    rw [← hs.mem_ids row.id, hnew]
    simp
  constructor
  · rw [Array.toList_push, List.map_append, List.nodup_append']
    refine ⟨hs.nodup, by simp, ?_⟩
    intro id hold hid
    simp only [List.map_cons, List.map_nil, List.mem_singleton] at hid
    exact hnotMem (hid ▸ hold)
  · intro id
    rw [Std.TreeSet.contains_insert, Array.toList_push, List.map_append, List.mem_append,
      Bool.or_eq_true, hs.mem_ids, beq_iff_eq, Std.LawfulEqOrd.compare_eq_iff_eq]
    simp only [List.map_cons, List.map_nil, List.mem_singleton]
    rw [or_comm, eq_comm]
  · intro r hr
    rw [Array.toList_push, List.mem_append, List.mem_singleton] at hr
    rcases hr with hr | rfl
    · exact lt_max_of_lt (.inl (hs.fresh r hr))
    · exact lt_max_of_lt (.inr (val_lt_succ hlast))
  · exact hs.entities.push row
  · exact hs.relations

theorem Sound.relate {store : Store} (hs : store.Sound) (row : RelationRow) :
    (store.relate row).Sound where
  nodup := hs.nodup
  mem_ids := hs.mem_ids
  fresh := hs.fresh
  entities := hs.entities
  relations := hs.relations.push row

theorem Reached.sound {store : Store} (h : store.Reached) : store.Sound := by
  induction h with
  | empty => exact .empty
  | push _ hpush ih => exact ih.push hpush
  | relate row _ ih => exact ih.relate row

/-- The store of some rows, those left out that cannot be inserted. -/
def ofRows (rows : List EntityRow) : Store :=
  rows.foldl (fun store row => (store.push row).toOption.getD store) {}

theorem reached_ofRows (rows : List EntityRow) : (ofRows rows).Reached := by
  have hstep : ∀ store : Store, store.Reached →
      (rows.foldl (fun store row => (store.push row).toOption.getD store) store).Reached := by
    induction rows with
    | nil => exact fun _ h => h
    | cons row rows ih =>
      intro store h
      apply ih
      show ((store.push row).toOption.getD store).Reached
      cases hpush : store.push row with
      | ok store' => exact h.push hpush
      | error err => exact h
  exact hstep {} .empty

theorem Sound.not_mem_nextId {store : Store} (hs : store.Sound) :
    ⟨store.nextId⟩ ∉ store.entities.toList.map (·.id) := by
  intro hmem
  obtain ⟨row, hrow, hid⟩ := List.mem_map.1 hmem
  have := hs.fresh row hrow
  rw [hid] at this
  exact UInt32.lt_irrefl _ this

/-- An insertion that succeeds adds one row, under an id that no row had. -/
structure Inserted (store : Store) (entry : Entry) (id : EntityId) (store' : Store) : Prop where
  entities : store'.entities = store.entities.push { entry with id }
  relations : store'.relations = store.relations
  fresh : id ∉ store.entities.toList.map (·.id)
  reached : store.Reached → store'.Reached

theorem inserted_of_insert {store store' : Store} {entry : Entry} {id : EntityId}
    (hs : store.Sound) (h : store.insert entry = .ok (id, store')) :
    store.Inserted entry id store' := by
  unfold insert at h
  cases hpush : store.push { entry with id := ⟨store.nextId⟩ } with
  | error err => simp [hpush, Except.map] at h
  | ok pushed =>
    simp only [hpush, Except.map, Except.ok.injEq, Prod.mk.injEq] at h
    obtain ⟨rfl, rfl⟩ := h
    have heq := (push_eq_ok hpush).2.2
    exact {
      entities := by rw [heq]
      relations := by rw [heq]
      fresh := hs.not_mem_nextId
      reached := fun hr => hr.push hpush }

/-- An insertion takes the next id and leaves the one behind it, or there is none behind it and
the insertion fails. -/
theorem Sound.insert_cases {store : Store} (hs : store.Sound) (entry : Entry) :
    (store.nextId = lastWord ∧ store.insert entry = .error .idsExhausted) ∨
    (store.nextId ≠ lastWord ∧ ∃ store',
      store.insert entry = .ok (⟨store.nextId⟩, store') ∧ store'.Sound ∧
        store'.nextId.toNat = store.nextId.toNat + 1) := by
  by_cases hlast : store.nextId = lastWord
  · left
    refine ⟨hlast, ?_⟩
    simp only [insert, hlast]
    rfl
  · right
    have hnew : store.ids.contains ⟨store.nextId⟩ = false := by
      rw [Bool.eq_false_iff, Ne, hs.mem_ids]
      exact hs.not_mem_nextId
    cases hpush : store.push { entry with id := ⟨store.nextId⟩ } with
    | error cause => simp [Store.push, hlast, hnew] at hpush
    | ok pushed =>
      refine ⟨hlast, pushed, by simp only [insert, hpush]; rfl, hs.push hpush, ?_⟩
      obtain ⟨-, -, rfl⟩ := push_eq_ok hpush
      have hlt := val_lt_succ hlast
      have hmax : max store.nextId (store.nextId + 1) = store.nextId + 1 :=
        if_pos (UInt32.le_of_lt hlt)
      simp only [hmax]
      have hroom : store.nextId.toNat ≠ 4294967295 := fun heq => hlast (UInt32.toNat_inj.1 heq)
      have hsize := store.nextId.toNat_lt
      rw [UInt32.toNat_add, UInt32.toNat_one]
      omega

/-- With distinct ids, an id belongs to one row. -/
theorem Sound.row_unique {store : Store} (h : store.Sound) {row other : EntityRow}
    (hrow : row ∈ store.entities.toList) (hother : other ∈ store.entities.toList)
    (hid : row.id = other.id) : row = other :=
  List.inj_on_of_nodup_map h.nodup hrow hother hid

/-- The rows that a streamed read shows are those that a pass over the table would show. -/
theorem Sound.entitiesOf_eq {store : Store} (hs : store.Sound) (project : ProjectId)
    (kinds : List EntityKind) :
    store.entitiesOf project kinds = store.entities.toList.filter fun row =>
      row.project = project ∧ kinds.contains row.kind := by
  rw [entitiesOf, hs.entities.read, List.filter_filter]
  apply List.filter_congr
  intro row _
  simp [Bool.and_comm]

/-- A streamed read shows no row twice. -/
theorem Sound.nodup_entitiesOf {store : Store} (hs : store.Sound) (project : ProjectId)
    (kinds : List EntityKind) : (store.entitiesOf project kinds).Nodup := by
  rw [hs.entitiesOf_eq]
  exact (List.Nodup.of_map _ hs.nodup).filter _

theorem Sound.relationsOf_eq {store : Store} (hs : store.Sound) (project : ProjectId)
    (kinds : List RelationKind) :
    store.relationsOf project kinds = store.relations.toList.filter fun row =>
      row.project = project ∧ kinds.contains row.kind := by
  rw [relationsOf, hs.relations.read, List.filter_filter]
  apply List.filter_congr
  intro row _
  simp [Bool.and_comm]

end Store

/-! ## Calls -/

namespace Access

/-- A call is served by the store, or fails and leaves the store alone. -/
theorem call_cases (access : Access) (which : Call)
    (serve : Store → Except StoreError (α × Store)) :
    (∃ answer store, serve access.store = .ok (answer, store) ∧
        access.call which serve =
          (.ok answer, { access with store, calls := access.calls.bump which })) ∨
      ∃ cause, access.call which serve =
        (.error cause, { access with calls := access.calls.bump which }) := by
  unfold call
  split
  · exact .inr ⟨_, rfl⟩
  · cases hserve : serve access.store with
    | error cause => exact .inr ⟨cause, rfl⟩
    | ok answer => exact .inl ⟨answer.1, answer.2, rfl, rfl⟩

/-- A plan is followed to the end. -/
theorem plan_call (access : Access) (which : Call)
    (serve : Store → Except StoreError (α × Store)) :
    (access.call which serve).2.plan = access.plan := by
  obtain ⟨_, _, -, hcall⟩ | ⟨_, hcall⟩ := access.call_cases which serve <;> rw [hcall]

theorem entitiesOf_cases (access : Access) (project : ProjectId) (kinds : List EntityKind) :
    (access.entitiesOf project kinds).2.store = access.store ∧
      ∀ rows, (access.entitiesOf project kinds).1 = .ok rows →
        rows = access.store.entitiesOf project kinds := by
  obtain ⟨rows, store, hserve, hcall⟩ | ⟨cause, hcall⟩ := access.call_cases .readEntities
    fun store => .ok (store.entitiesOf project kinds, store)
  · simp only [Except.ok.injEq, Prod.mk.injEq] at hserve
    obtain ⟨rfl, rfl⟩ := hserve
    rw [entitiesOf, hcall]
    simp [eq_comm]
  · rw [entitiesOf, hcall]
    simp

theorem relationsOf_cases (access : Access) (project : ProjectId) (kinds : List RelationKind) :
    (access.relationsOf project kinds).2.store = access.store ∧
      ∀ rows, (access.relationsOf project kinds).1 = .ok rows →
        rows = access.store.relationsOf project kinds := by
  obtain ⟨rows, store, hserve, hcall⟩ | ⟨cause, hcall⟩ := access.call_cases .readRelations
    fun store => .ok (store.relationsOf project kinds, store)
  · simp only [Except.ok.injEq, Prod.mk.injEq] at hserve
    obtain ⟨rfl, rfl⟩ := hserve
    rw [relationsOf, hcall]
    simp [eq_comm]
  · rw [relationsOf, hcall]
    simp

theorem insert_cases (access : Access) (entry : Entry) :
    (∃ id, (access.insert entry).1 = .ok id ∧
        access.store.insert entry = .ok (id, (access.insert entry).2.store)) ∨
      ∃ cause, (access.insert entry).1 = .error cause ∧
        (access.insert entry).2.store = access.store := by
  obtain ⟨id, store, hserve, hcall⟩ | ⟨cause, hcall⟩ := access.call_cases .insertEntity
    fun store => store.insert entry
  · left
    rw [insert, hcall]
    exact ⟨id, rfl, hserve⟩
  · right
    rw [insert, hcall]
    exact ⟨cause, rfl, rfl⟩

/-- Where nothing fails, a row is inserted under the next id, unless the ids are used up; then
nothing changes. -/
theorem insert_unless_full {access : Access} (hstore : access.store.Reached)
    (hplan : access.plan = .none) (entry : Entry) :
    (access.store.nextId ≠ Store.lastWord ∧ ∃ after,
      access.insert entry = (.ok ⟨access.store.nextId⟩, after) ∧
        access.store.Inserted entry ⟨access.store.nextId⟩ after.store ∧ after.plan = .none ∧
        after.store.nextId.toNat = access.store.nextId.toNat + 1) ∨
    (access.store.nextId = Store.lastWord ∧ ∃ after,
      access.insert entry = (.error .idsExhausted, after) ∧ after.store = access.store ∧
        after.plan = .none) := by
  have hcall : ∀ made, access.plan .insertEntity made = false := by
    intro made
    rw [hplan]
    rfl
  rcases hstore.sound.insert_cases entry with
    ⟨hfull, hrefused⟩ | ⟨hroom, store, hinsert, -, hnext⟩
  · right
    refine ⟨hfull, { access with calls := access.calls.bump .insertEntity }, ?_, rfl, hplan⟩
    simp only [insert, call, hcall, hrefused, Bool.false_eq_true, if_false]
  · left
    refine ⟨hroom, { access with store, calls := access.calls.bump .insertEntity }, ?_,
      Store.inserted_of_insert hstore.sound hinsert, hplan, hnext⟩
    simp only [insert, call, hcall, hinsert, Bool.false_eq_true, if_false]

theorem relate_cases (access : Access) (row : RelationRow) :
    ((access.relate row).1 = .ok () ∧ (access.relate row).2.store = access.store.relate row) ∨
      ∃ cause, (access.relate row).1 = .error cause ∧
        (access.relate row).2.store = access.store := by
  obtain ⟨answer, store, hserve, hcall⟩ | ⟨cause, hcall⟩ := access.call_cases .insertRelation
    fun store => .ok ((), store.relate row)
  · left
    simp only [Except.ok.injEq, Prod.mk.injEq] at hserve
    rw [relate, hcall, ← hserve.2]
    exact ⟨rfl, rfl⟩
  · right
    rw [relate, hcall]
    exact ⟨cause, rfl, rfl⟩

end Access

end Referent
