import Referent.Model.Loading

/-!
# What loading makes of rows

A table that is loaded from rows is known from the rows: the arena holds one entity for each
row in order, a name denotes the first row that claims it, and an id leads to the last
class-like row that has it. The three facts are stated for loading on top of any table, so
they apply to one project, to a list of libraries and to a list on top of a core alike.

`Draft.declare` and `Draft.inherit` are what the two passes over one project do to a draft,
read off the store at once; the passes themselves read it call by call.
-/

namespace Referent

namespace Table

variable (table : Table)

/-! ## Operations and lookups -/

@[simp] theorem slot?_allocate (entity : Entity) (name : String) :
    (table.allocate entity).slot? name = table.slot? name := rfl

@[simp] theorem slot?_track (id : EntityId) (slot : Nat) (name : String) :
    (table.track id slot).slot? name = table.slot? name := rfl

theorem slot?_bind (name other : String) (slot : Nat) :
    (table.bind name slot).slot? other = if name = other then some slot else table.slot? other := by
  rw [slot?, bind, Std.TreeMap.getElem?_insert]
  simp only [Std.LawfulEqOrd.compare_eq_iff_eq]
  rfl

theorem slot?_forget (name other : String) :
    (table.forget name).slot? other = if name = other then none else table.slot? other := by
  rw [slot?, forget, Std.TreeMap.getElem?_erase]
  simp only [Std.LawfulEqOrd.compare_eq_iff_eq]
  rfl

theorem typeSlot?_track (htracks : table.typeSlots.isSome) (id other : EntityId) (slot : Nat) :
    (table.track id slot).typeSlot? other =
      if id = other then some slot else table.typeSlot? other := by
  obtain ⟨typeSlots, htypeSlots⟩ := Option.isSome_iff_exists.1 htracks
  simp only [typeSlot?, track, htypeSlots, Option.map_some, Option.bind_some]
  rw [Std.TreeMap.getElem?_insert]
  simp only [Std.LawfulEqOrd.compare_eq_iff_eq]

@[simp] theorem typeSlots_allocate (entity : Entity) :
    (table.allocate entity).typeSlots = table.typeSlots := rfl

@[simp] theorem size_addParent (slot : Nat) (parent : EntityRef) :
    (table.addParent slot parent).size = table.size := by
  simp [size, addParent]

end Table

/-! ## What rows say -/

/-- The entity of a row. -/
def EntityRow.entity (origin : Origin) (row : EntityRow) : Entity :=
  { name := row.name, kind := row.kind, id := row.id, origin }

/-- The slot of the first row that claims a name, when rows fill slots from `start` on. -/
def claimSlot? (name : String) : (start : Nat) → List EntityRow → Option Nat
  | _, [] => none
  | start, row :: rows =>
    (if name ∈ row.claims then some start else none).or (claimSlot? name (start + 1) rows)

/-- The slot of the last class-like row with an id, when rows fill slots from `start` on. -/
def classSlot? (id : EntityId) : (start : Nat) → List EntityRow → Option Nat
  | _, [] => none
  | start, row :: rows =>
    (classSlot? id (start + 1) rows).or
      (if row.kind.isClassLike ∧ row.id = id then some start else none)

theorem claimSlot?_append (name : String) (start : Nat) (rows more : List EntityRow) :
    claimSlot? name start (rows ++ more) =
      (claimSlot? name start rows).or (claimSlot? name (start + rows.length) more) := by
  induction rows generalizing start with
  | nil => simp [claimSlot?]
  | cons row rows ih =>
    rw [List.cons_append, claimSlot?, claimSlot?, ih, Option.or_assoc, List.length_cons,
      Nat.add_right_comm, Nat.add_assoc]

theorem classSlot?_append (id : EntityId) (start : Nat) (rows more : List EntityRow) :
    classSlot? id start (rows ++ more) =
      (classSlot? id (start + rows.length) more).or (classSlot? id start rows) := by
  induction rows generalizing start with
  | nil => simp [classSlot?]
  | cons row rows ih =>
    rw [List.cons_append, classSlot?, classSlot?, ih, Option.or_assoc, List.length_cons,
      Nat.add_right_comm, Nat.add_assoc]

theorem claimSlot?_add (name : String) (start shift : Nat) (rows : List EntityRow) :
    claimSlot? name (start + shift) rows = (claimSlot? name start rows).map (· + shift) := by
  induction rows generalizing start with
  | nil => rfl
  | cons row rows ih =>
    rw [claimSlot?, claimSlot?, Nat.add_right_comm, ih]
    split <;> simp

theorem classSlot?_add (id : EntityId) (start shift : Nat) (rows : List EntityRow) :
    classSlot? id (start + shift) rows = (classSlot? id start rows).map (· + shift) := by
  induction rows generalizing start with
  | nil => rfl
  | cons row rows ih =>
    rw [classSlot?, classSlot?, Nat.add_right_comm, ih]
    cases classSlot? id (start + 1) rows <;> split <;> simp

theorem claimSlot?_bounds {name : String} {start slot : Nat} {rows : List EntityRow}
    (h : claimSlot? name start rows = some slot) : start ≤ slot ∧ slot < start + rows.length := by
  induction rows generalizing start with
  | nil => simp [claimSlot?] at h
  | cons row rows ih =>
    rw [claimSlot?] at h
    rw [List.length_cons]
    rcases Option.or_eq_some_iff.1 h with h | ⟨-, h⟩
    · simp only [Option.ite_none_right_eq_some, Option.some.injEq] at h
      omega
    · have := ih h
      omega

theorem classSlot?_bounds {id : EntityId} {start slot : Nat} {rows : List EntityRow}
    (h : classSlot? id start rows = some slot) : start ≤ slot ∧ slot < start + rows.length := by
  induction rows generalizing start with
  | nil => simp [classSlot?] at h
  | cons row rows ih =>
    rw [classSlot?] at h
    rw [List.length_cons]
    rcases Option.or_eq_some_iff.1 h with h | ⟨-, h⟩
    · have := ih h
      omega
    · simp only [Option.ite_none_right_eq_some, Option.some.injEq] at h
      omega

/-- An id leads somewhere exactly if some class-like row has it. -/
theorem classSlot?_isSome {id : EntityId} {start : Nat} {rows : List EntityRow} :
    (classSlot? id start rows).isSome ↔ ∃ row ∈ rows, row.kind.isClassLike ∧ row.id = id := by
  induction rows generalizing start with
  | nil => simp [classSlot?]
  | cons row rows ih =>
    rw [classSlot?, Option.isSome_or, Bool.or_eq_true, ih]
    by_cases h : row.kind.isClassLike ∧ row.id = id
    · simp [h]
    · simp [h]

/-- An id that no type has leads nowhere. -/
theorem classSlot?_eq_none {id : EntityId} {start : Nat} {rows : List EntityRow}
    (h : ∀ row ∈ rows, row.kind.isClassLike = true → row.id ≠ id) :
    classSlot? id start rows = none := by
  rw [← Option.not_isSome_iff_eq_none, classSlot?_isSome]
  rintro ⟨row, hrow, hkind, hid⟩
  exact h row hrow hkind hid

namespace Draft

/-! ## Claims -/

theorem slot?_claim (draft : Draft) (slot : Nat) (name other : String) :
    (draft.claim slot name).table.slot? other =
      (draft.table.slot? other).or (if name = other then some slot else none) := by
  unfold claim
  split
  · rename_i taken htaken
    by_cases h : name = other
    · subst h
      simp [htaken]
    · simp [h]
  · rename_i hfree
    rw [Table.slot?_bind]
    by_cases h : name = other
    · subst h
      simp [hfree]
    · simp [h]

@[simp] theorem arena_claim (draft : Draft) (slot : Nat) (name : String) :
    (draft.claim slot name).table.arena = draft.table.arena := by
  unfold claim
  split <;> rfl

@[simp] theorem typeSlots_claim (draft : Draft) (slot : Nat) (name : String) :
    (draft.claim slot name).table.typeSlots = draft.table.typeSlots := by
  unfold claim
  split <;> rfl

theorem slot?_claims (draft : Draft) (slot : Nat) (names : List String) (other : String) :
    (names.foldl (claim · slot) draft).table.slot? other =
      (draft.table.slot? other).or (if other ∈ names then some slot else none) := by
  induction names generalizing draft with
  | nil => simp
  | cons name names ih =>
    rw [List.foldl_cons, ih, slot?_claim, Option.or_assoc]
    congr 1
    by_cases h : name = other
    · simp [h]
    · have : other ≠ name := Ne.symm h
      simp [h, this]

@[simp] theorem arena_claims (draft : Draft) (slot : Nat) (names : List String) :
    (names.foldl (claim · slot) draft).table.arena = draft.table.arena := by
  induction names generalizing draft with
  | nil => rfl
  | cons name names ih => rw [List.foldl_cons, ih, arena_claim]

@[simp] theorem typeSlots_claims (draft : Draft) (slot : Nat) (names : List String) :
    (names.foldl (claim · slot) draft).table.typeSlots = draft.table.typeSlots := by
  induction names generalizing draft with
  | nil => rfl
  | cons name names ih => rw [List.foldl_cons, ih, typeSlots_claim]

/-! ## Rows -/

theorem table_addRow (origin : Origin) (draft : Draft) (row : EntityRow) :
    (draft.addRow origin row).table.arena = draft.table.arena.push (row.entity origin) ∧
      (draft.addRow origin row).table.typeSlots.isSome = draft.table.typeSlots.isSome := by
  unfold addRow add
  split <;> simp [Table.allocate, Table.track, EntityRow.entity]

theorem slot?_addRow (origin : Origin) (draft : Draft) (row : EntityRow) (name : String) :
    (draft.addRow origin row).table.slot? name =
      (draft.table.slot? name).or
        (if name ∈ row.claims then some draft.table.size else none) := by
  have hadd := slot?_claims
    { draft with table := draft.table.allocate (row.entity origin) } draft.table.size
    row.claims name
  unfold addRow add
  split
  · rw [Table.slot?_track]
    exact hadd
  · exact hadd

theorem typeSlot?_addRow (origin : Origin) (draft : Draft) (row : EntityRow)
    (htracks : draft.table.typeSlots.isSome) (id : EntityId) :
    (draft.addRow origin row).table.typeSlot? id =
      (if row.kind.isClassLike ∧ row.id = id then some draft.table.size else none).or
        (draft.table.typeSlot? id) := by
  have hsame : ∀ entity names, (draft.add entity names).table.typeSlots =
      draft.table.typeSlots := by
    intro entity names
    rw [add, typeSlots_claims, Table.typeSlots_allocate]
  unfold addRow
  split
  · rename_i hclass
    rw [Table.typeSlot?_track _ (by rw [hsame]; exact htracks)]
    by_cases h : row.id = id
    · simp [h, hclass]
    · simp [h, Table.typeSlot?, hsame]
  · rename_i hclass
    simp [hclass, Table.typeSlot?, hsame]

theorem arena_addRows (origin : Origin) (draft : Draft) (rows : List EntityRow) :
    (rows.foldl (addRow origin) draft).table.arena.toList =
      draft.table.arena.toList ++ rows.map (·.entity origin) := by
  induction rows generalizing draft with
  | nil => simp
  | cons row rows ih =>
    rw [List.foldl_cons, ih, (table_addRow origin draft row).1, Array.toList_push, List.map_cons,
      List.append_assoc, List.singleton_append]

theorem size_addRows (origin : Origin) (draft : Draft) (rows : List EntityRow) :
    (rows.foldl (addRow origin) draft).table.size = draft.table.size + rows.length := by
  rw [Table.size, Table.size, ← Array.length_toList, arena_addRows]
  simp

theorem tracks_addRows (origin : Origin) (draft : Draft) (rows : List EntityRow) :
    (rows.foldl (addRow origin) draft).table.typeSlots.isSome =
      draft.table.typeSlots.isSome := by
  induction rows generalizing draft with
  | nil => rfl
  | cons row rows ih => rw [List.foldl_cons, ih, (table_addRow origin draft row).2]

/-- A name keeps what it denotes; otherwise it denotes the first row that claims it. -/
theorem slot?_addRows (origin : Origin) (draft : Draft) (rows : List EntityRow) (name : String) :
    (rows.foldl (addRow origin) draft).table.slot? name =
      (draft.table.slot? name).or (claimSlot? name draft.table.size rows) := by
  induction rows generalizing draft with
  | nil => simp [claimSlot?]
  | cons row rows ih =>
    have hsize := size_addRows origin draft [row]
    simp only [List.foldl_cons, List.foldl_nil, List.length_singleton] at hsize
    rw [List.foldl_cons, ih, slot?_addRow, hsize, claimSlot?, Option.or_assoc]

/-- An id leads to the last class-like row that has it. -/
theorem typeSlot?_addRows (origin : Origin) (draft : Draft) (rows : List EntityRow)
    (htracks : draft.table.typeSlots.isSome) (id : EntityId) :
    (rows.foldl (addRow origin) draft).table.typeSlot? id =
      (classSlot? id draft.table.size rows).or (draft.table.typeSlot? id) := by
  induction rows generalizing draft with
  | nil => simp [classSlot?]
  | cons row rows ih =>
    have hsize := size_addRows origin draft [row]
    simp only [List.foldl_cons, List.foldl_nil, List.length_singleton] at hsize
    rw [List.foldl_cons, ih _ (by rw [(table_addRow origin draft row).2]; exact htracks),
      typeSlot?_addRow origin draft row htracks, hsize, classSlot?, Option.or_assoc]

/-! ## Edges -/

@[simp] theorem slot?_applyEdge (draft : Draft) (edge : Except Anomaly (Nat × EntityRef))
    (name : String) : (draft.applyEdge edge).table.slot? name = draft.table.slot? name := by
  cases edge <;> rfl

@[simp] theorem typeSlots_applyEdge (draft : Draft) (edge : Except Anomaly (Nat × EntityRef)) :
    (draft.applyEdge edge).table.typeSlots = draft.table.typeSlots := by
  cases edge <;> rfl

@[simp] theorem slot?_wire (draft : Draft) (edges : List (Except Anomaly (Nat × EntityRef)))
    (name : String) : (draft.wire edges).table.slot? name = draft.table.slot? name := by
  induction edges generalizing draft with
  | nil => rfl
  | cons edge edges ih =>
    rw [wire, List.foldl_cons]
    exact (ih _).trans (slot?_applyEdge draft edge name)

@[simp] theorem typeSlots_wire (draft : Draft)
    (edges : List (Except Anomaly (Nat × EntityRef))) :
    (draft.wire edges).table.typeSlots = draft.table.typeSlots := by
  induction edges generalizing draft with
  | nil => rfl
  | cons edge edges ih =>
    rw [wire, List.foldl_cons]
    exact (ih _).trans (typeSlots_applyEdge draft edge)

/-! ## The passes over one project -/

/-- What loading the declarations of a project makes of a draft. -/
def declare (origin : Origin) (store : Store) (draft : Draft) (project : ProjectId) : Draft :=
  (store.entitiesOf project EntityKind.declared).foldl (addRow origin) draft

/-- What loading the inheritance of a project makes of a draft. -/
def inherit (toRef : Nat → EntityRef) (elsewhere : EntityId → Option EntityRef) (store : Store)
    (draft : Draft) (project : ProjectId) : Draft :=
  draft.wire <| (store.relationsOf project RelationKind.inheritance).map <|
    draft.table.edge toRef elsewhere (baseTypes (store.relationsOf project [.hasBaseType]))

end Draft

end Referent
