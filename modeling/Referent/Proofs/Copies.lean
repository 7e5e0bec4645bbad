import Mathlib.Data.List.NodupEquivFin
import Referent.Proofs.Models
import Referent.Proofs.Relocation
import Referent.Proofs.Wiring

/-!
# The same rows in other slots

Two drafts may be loaded from the same rows in another order, or with some of the rows more than
once. Then every entity of one has a copy in the other (`Table.Copies`). A name leads to the copy
of the first row that claims it (`firstCopy`), an id to the copy of a type that was loaded last
(`wiredCopy`), and it is the latter that edges begin and end at. So copies have the copies of the
supertypes, as far as the index by id keeps up with the copying (`edges_copied`).
-/

namespace Referent

/-! ## Rows and their slots -/

/-- A name leads to the first row that claims it, in the slot where this row stands first. -/
theorem claimSlot?_eq (name : String) (start : Nat) (rows : List EntityRow) :
    claimSlot? name start rows =
      (rows.find? (name ∈ ·.claims)).map fun row => start + rows.idxOf row := by
  induction rows generalizing start with
  | nil => rfl
  | cons row rows ih =>
    rw [claimSlot?, ih, List.find?_cons]
    by_cases hclaims : name ∈ row.claims
    · simp [hclaims]
    · simp only [hclaims, decide_false, if_false, Option.none_or]
      cases hfound : rows.find? (name ∈ ·.claims) with
      | none => rfl
      | some found =>
        have hne : row ≠ found := by
          rintro rfl
          have := List.find?_some hfound
          exact hclaims (of_decide_eq_true this)
        simp only [Option.map_some, List.idxOf_cons, beq_eq_false_iff_ne.2 hne, cond_false]
        congr 1
        omega

/-- The slot that an id leads to holds a type with this id. -/
theorem row_of_classSlot? {id : EntityId} {start slot : Nat} {rows : List EntityRow}
    (h : classSlot? id start rows = some slot) : start ≤ slot ∧ ∃ row,
      rows[slot - start]? = some row ∧ row.kind.isClassLike = true ∧ row.id = id := by
  induction rows generalizing start with
  | nil => cases h
  | cons row rows ih =>
    rw [classSlot?, Option.or_eq_some_iff] at h
    rcases h with hlater | ⟨-, hhere⟩
    · obtain ⟨hle, found, hfound, hclass, hid⟩ := ih hlater
      refine ⟨by omega, found, ?_, hclass, hid⟩
      have hstep : slot - start = slot - (start + 1) + 1 := by omega
      rw [hstep, List.getElem?_cons_succ]
      exact hfound
    · split at hhere
      · rename_i hmatch
        cases hhere
        exact ⟨Nat.le_refl _, row, by simp, hmatch.1, hmatch.2⟩
      · cases hhere

/-- An id leads no less far than to any type that has it. -/
theorem le_classSlot? (start : Nat) {i : Nat} {rows : List EntityRow} {row : EntityRow}
    (hrow : rows[i]? = some row) (hclass : row.kind.isClassLike = true) :
    ∃ slot, classSlot? row.id start rows = some slot ∧ start + i ≤ slot := by
  have hmem : row ∈ rows.drop i := by
    apply List.mem_of_getElem? (i := 0)
    rw [List.getElem?_drop]
    exact hrow
  have hlt := (List.getElem?_eq_some_iff.1 hrow).1
  have hlength : (rows.take i).length = i := List.length_take_of_le (Nat.le_of_lt hlt)
  have hlater : (classSlot? row.id (start + i) (rows.drop i)).isSome :=
    classSlot?_isSome.2 ⟨row, hmem, hclass, rfl⟩
  obtain ⟨slot, hslot⟩ := Option.isSome_iff_exists.1 hlater
  refine ⟨slot, ?_, (classSlot?_bounds hslot).1⟩
  conv_lhs => rw [← List.take_append_drop i rows]
  rw [classSlot?_append, hlength, hslot, Option.some_or]

/-! ## Copies -/

/-- The reference to the copy of a library slot. -/
def EntityRef.copied (copy : Nat → Nat) : EntityRef → EntityRef
  | .library slot => .library (copy slot)
  | .project slot => .project slot

/-- Every entity of one table has a copy in another one, in a slot of its own. -/
structure Table.Copies (copy : Nat → Nat) (small large : Table) : Prop where
  injective : Set.InjOn copy {slot | slot < small.size}
  entity : ∀ (slot : Nat) (entity : Entity), small.arena[slot]? = some entity → ∃ copied,
    large.arena[copy slot]? = some copied ∧ copied.name = entity.name ∧
      copied.kind = entity.kind ∧ copied.id = entity.id ∧
        copied.parents = entity.parents.map (EntityRef.copied copy)

/-- Where the slots of some rows behind `start` others stand among other rows: the same row is
there. -/
structure Recopies (start : Nat) (rows more : List EntityRow) (copy : Nat → Nat) : Prop where
  old : ∀ slot < start, copy slot = slot
  row : ∀ (i : Nat) (row : EntityRow), rows[i]? = some row → ∃ j,
    copy (start + i) = start + j ∧ more[j]? = some row

/-- The first slot in which the row of a slot stands among other rows. -/
def firstCopy (start : Nat) (rows more : List EntityRow) (slot : Nat) : Nat :=
  if slot < start then slot
  else match rows[slot - start]? with
    | some row => start + more.idxOf row
    | none => slot

/-- The slot that the id of a slot leads to among other rows, if it is the id of a type. -/
def wiredCopy (start : Nat) (rows more : List EntityRow) (slot : Nat) : Nat :=
  if slot < start then slot
  else match rows[slot - start]? with
    | some row =>
      if row.kind.isClassLike then (classSlot? row.id start more).getD slot
      else start + more.idxOf row
    | none => slot

section Rows

variable {start : Nat} {rows more : List EntityRow} {copy : Nat → Nat}

theorem firstCopy_behind {i : Nat} {row : EntityRow} (hrow : rows[i]? = some row) :
    firstCopy start rows more (start + i) = start + more.idxOf row := by
  rw [firstCopy, if_neg (by omega), Nat.add_sub_cancel_left, hrow]

theorem wiredCopy_behind {i : Nat} {row : EntityRow} (hrow : rows[i]? = some row) :
    wiredCopy start rows more (start + i) =
      if row.kind.isClassLike then (classSlot? row.id start more).getD (start + i)
      else start + more.idxOf row := by
  rw [wiredCopy, if_neg (by omega), Nat.add_sub_cancel_left, hrow]

theorem recopies_firstCopy (hmem : ∀ row ∈ rows, row ∈ more) :
    Recopies start rows more (firstCopy start rows more) where
  old _ hslot := if_pos hslot
  row _ row hrow :=
    ⟨more.idxOf row, firstCopy_behind hrow,
      List.getElem?_idxOf (hmem row (List.mem_of_getElem? hrow))⟩

/-- Rows with distinct ids. -/
def IdsApart (rows : List EntityRow) : Prop :=
  ∀ row ∈ rows, ∀ other ∈ rows, row.id = other.id → row = other

theorem recopies_wiredCopy (hmem : ∀ row ∈ rows, row ∈ more) (hids : IdsApart more) :
    Recopies start rows more (wiredCopy start rows more) where
  old _ hslot := if_pos hslot
  row _ row hrow := by
    have hmore := hmem row (List.mem_of_getElem? hrow)
    rw [wiredCopy_behind hrow]
    split
    · rename_i hclass
      obtain ⟨j, hj⟩ := List.getElem?_of_mem hmore
      obtain ⟨slot, hslot, hle⟩ := le_classSlot? start hj hclass
      obtain ⟨hstart, found, hfound, -, hid⟩ := row_of_classSlot? hslot
      rw [hids found (List.mem_of_getElem? hfound) row hmore hid] at hfound
      refine ⟨slot - start, ?_, hfound⟩
      rw [hslot, Option.getD_some]
      omega
    · exact ⟨more.idxOf row, rfl, List.getElem?_idxOf hmore⟩

theorem idsApart_declarationsOf {store : Store} (hstore : store.Sound)
    (projects : List ProjectId) : IdsApart (store.declarationsOf projects) := by
  intro row hrow other hother hid
  obtain ⟨hmem, -⟩ := (mem_declarationsOf hstore).1 hrow
  obtain ⟨hmem', -⟩ := (mem_declarationsOf hstore).1 hother
  exact hstore.row_unique hmem hmem' hid

/-- Two places of one row make it occur twice. -/
theorem two_le_count {i j : Nat} {row : EntityRow} (hlt : i < j) (hi : more[i]? = some row)
    (hj : more[j]? = some row) : 2 ≤ more.count row := by
  rw [← List.duplicate_iff_two_le_count, List.duplicate_iff_exists_distinct_get]
  obtain ⟨hi, heq⟩ := List.getElem?_eq_some_iff.1 hi
  obtain ⟨hj, heq'⟩ := List.getElem?_eq_some_iff.1 hj
  exact ⟨⟨i, hi⟩, ⟨j, hj⟩, hlt, heq.symm, heq'.symm⟩

/-- A row that occurs twice occurs again after its first place. -/
theorem exists_later {row : EntityRow} (h : 2 ≤ more.count row) :
    ∃ j, more.idxOf row < j ∧ more[j]? = some row := by
  rw [← List.duplicate_iff_two_le_count, List.duplicate_iff_exists_distinct_get] at h
  obtain ⟨i, j, hlt, hi, hj⟩ := h
  refine ⟨j, Nat.lt_of_le_of_lt ?_ hlt, by rw [List.getElem?_eq_getElem j.isLt, hj]; rfl⟩
  by_contra hlater
  have hearlier := List.not_of_lt_findIdx (Nat.lt_of_not_le hlater)
  rw [← List.get_eq_getElem, ← hi, beq_self_eq_true] at hearlier
  cases hearlier

/-- Both copies are in the same slot unless the row is a type's and occurs more than once. -/
theorem firstCopy_eq_wiredCopy {i : Nat} {row : EntityRow} (hrow : rows[i]? = some row)
    (hmem : ∀ row ∈ rows, row ∈ more) (hids : IdsApart more)
    (honce : row.kind.isClassLike = true → more.count row ≤ 1) :
    firstCopy start rows more (start + i) = wiredCopy start rows more (start + i) := by
  rw [firstCopy_behind hrow]
  by_cases hclass : row.kind.isClassLike = true
  · have hwired : Recopies start rows more (wiredCopy start rows more) :=
      recopies_wiredCopy hmem hids
    obtain ⟨j, hj, hmore⟩ := hwired.row i row hrow
    have hfirst := List.getElem?_idxOf (hmem row (List.mem_of_getElem? hrow))
    have hcount := honce hclass
    have hsame : more.idxOf row = j := by
      rcases Nat.lt_trichotomy (more.idxOf row) j with hlt | heq | hlt
      · have := two_le_count hlt hfirst hmore
        omega
      · exact heq
      · have := two_le_count hlt hmore hfirst
        omega
    rw [hj, hsame]
  · rw [wiredCopy_behind hrow, if_neg hclass]

/-- The index by id of the other rows leads to the copies. -/
theorem classSlot?_copied (hmem : ∀ row, row ∈ rows ↔ row ∈ more) (id : EntityId) :
    classSlot? id start more =
      (classSlot? id start rows).map (wiredCopy start rows more) := by
  cases hslot : classSlot? id start rows with
  | none =>
    rw [Option.map_none, ← Option.not_isSome_iff_eq_none, classSlot?_isSome]
    rintro ⟨row, hrow, hclass, rfl⟩
    have hsome : (classSlot? row.id start rows).isSome :=
      classSlot?_isSome.2 ⟨row, (hmem row).2 hrow, hclass, rfl⟩
    rw [hslot] at hsome
    cases hsome
  | some slot =>
    obtain ⟨hstart, row, hrow, hclass, rfl⟩ := row_of_classSlot? hslot
    have hslot' : start + (slot - start) = slot := by omega
    have hcopy : wiredCopy start rows more (start + (slot - start)) = _ := wiredCopy_behind hrow
    rw [hslot', if_pos hclass] at hcopy
    have hsome : (classSlot? row.id start more).isSome :=
      classSlot?_isSome.2 ⟨row, (hmem row).1 (List.mem_of_getElem? hrow), hclass, rfl⟩
    obtain ⟨last, hlast⟩ := Option.isSome_iff_exists.1 hsome
    rw [Option.map_some, hcopy, hlast, Option.getD_some]

/-- Names lead to first copies among the other rows, if the same rows claim them first. -/
theorem claimSlot?_copied {name : String}
    (hfind : rows.find? (name ∈ ·.claims) = more.find? (name ∈ ·.claims)) :
    claimSlot? name start more =
      (claimSlot? name start rows).map (firstCopy start rows more) := by
  rw [claimSlot?_eq, claimSlot?_eq, ← hfind]
  cases hfound : rows.find? (name ∈ ·.claims) with
  | none => rfl
  | some row =>
    have hrow : rows[rows.idxOf row]? = some row :=
      List.getElem?_idxOf (List.mem_of_find?_eq_some hfound)
    simp only [Option.map_some]
    rw [firstCopy_behind hrow]

/-- Rows in other slots make copies of the entities, behind the same old ones. -/
theorem Recopies.copies {draft : Draft} {origin : Origin}
    (h : Recopies draft.table.size rows more copy) (hrows : rows.Nodup)
    (hsound : draft.table.Sound .library fun _ => False) :
    Table.Copies copy (rows.foldl (Draft.addRow origin) draft).table
      (more.foldl (Draft.addRow origin) draft).table where
  injective := by
    intro slot hslot other hother heq
    change slot < (rows.foldl (Draft.addRow origin) draft).table.size at hslot
    change other < (rows.foldl (Draft.addRow origin) draft).table.size at hother
    rw [Draft.size_addRows] at hslot hother
    have hbehind (slot : Nat) (hlt : slot < draft.table.size + rows.length)
        (hle : ¬ slot < draft.table.size) : ∃ i row, slot = draft.table.size + i ∧
          rows[i]? = some row := by
      have hi : slot - draft.table.size < rows.length := by omega
      exact ⟨slot - draft.table.size, rows[slot - draft.table.size], by omega,
        List.getElem?_eq_getElem hi⟩
    by_cases hold : slot < draft.table.size
    · by_cases hold' : other < draft.table.size
      · rwa [h.old slot hold, h.old other hold'] at heq
      · obtain ⟨i, row, rfl, hrow⟩ := hbehind other hother hold'
        obtain ⟨j, hj, -⟩ := h.row i row hrow
        rw [h.old slot hold, hj] at heq
        omega
    · obtain ⟨i, row, rfl, hrow⟩ := hbehind slot hslot hold
      obtain ⟨j, hj, hmore⟩ := h.row i row hrow
      by_cases hold' : other < draft.table.size
      · rw [h.old other hold', hj] at heq
        omega
      · obtain ⟨i', row', rfl, hrow'⟩ := hbehind other hother hold'
        obtain ⟨j', hj', hmore'⟩ := h.row i' row' hrow'
        rw [hj, hj'] at heq
        obtain rfl : j = j' := by omega
        rw [hmore] at hmore'
        cases hmore'
        rw [(List.getElem?_inj (List.getElem?_eq_some_iff.1 hrow).1 hrows).1
          (hrow.trans hrow'.symm)]
  entity slot entity hentity := by
    rw [Draft.getElem?_addRows] at hentity
    split at hentity
    · rename_i hold
      refine ⟨entity, ?_, rfl, rfl, rfl, ?_⟩
      · rw [Draft.getElem?_addRows, h.old slot hold, if_pos hold]
        exact hentity
      · have hmem := Array.mem_toList_iff.2 (Array.mem_of_getElem? hentity)
        conv_lhs => rw [← List.map_id entity.parents]
        apply List.map_congr_left
        intro ref href
        obtain ⟨slot, rfl, hlt⟩ := (hsound.parent entity hmem ref href).resolve_right not_false
        rw [EntityRef.copied, h.old slot hlt, id]
    · rename_i hbehind
      obtain ⟨row, hrow, rfl⟩ := Option.map_eq_some_iff.1 hentity
      obtain ⟨j, hj, hmore⟩ := h.row _ row hrow
      have hslot : draft.table.size + (slot - draft.table.size) = slot := by omega
      rw [hslot] at hj
      refine ⟨row.entity origin, ?_, rfl, rfl, rfl, rfl⟩
      rw [Draft.getElem?_addRows, hj, if_neg (by omega), Nat.add_sub_cancel_left, hmore]
      rfl

end Rows

/-! ## Wiring copies -/

section Wiring

variable {copy : Nat → Nat} {small large : Draft} {store : Store}

/-- The link with both of its ends copied. -/
def copiedLink (copy : Nat → Nat) (link : Nat × EntityRef) : Nat × EntityRef :=
  (copy link.1, link.2.copied copy)

/-- If the index by id keeps up with the copying, a row means the same link between copies, or
the same anomaly. -/
theorem edges_copied
    (hindex : ∀ id, large.table.typeSlot? id = (small.table.typeSlot? id).map copy)
    (project : ProjectId) :
    large.table.edges .library (fun _ => none) store project =
      (small.table.edges .library (fun _ => none) store project).map
        (Except.map (copiedLink copy)) := by
  rw [Table.edges, Table.edges, List.map_map]
  apply List.map_congr_left
  intro row _
  simp only [Function.comp_apply, Table.edge, hindex, Option.orElse_eq_orElse,
    Option.orElse_eq_or, Option.or_none]
  cases small.table.typeSlot? row.left with
  | none => rfl
  | some child =>
    generalize Std.TreeMap.getD _ row.right row.right = right
    cases small.table.typeSlot? right <;> rfl

/-- What an edge leads to in a table in which nothing dangles stands in the table, as does what
it begins at. -/
theorem slots_of_edge {table : Table} (hsound : table.Sound .library fun _ => False)
    {project : ProjectId} {child : Nat} {parent : EntityRef}
    (hedge : .ok (child, parent) ∈ table.edges .library (fun _ => none) store project) :
    child < table.size ∧ ∃ slot, parent = .library slot ∧ slot < table.size := by
  obtain ⟨row, -, hrow⟩ := List.mem_map.1 hedge
  refine ⟨hsound.typeSlot_lt _ _ (child_of_edge hrow), ?_⟩
  exact (Table.parent_of_edge hsound (by simp) hrow).resolve_right not_false

theorem EntityRef.copied_injOn {slots : Set Nat} (hinj : Set.InjOn copy slots) :
    Set.InjOn (EntityRef.copied copy) {ref | ∃ slot, ref = .library slot ∧ slot ∈ slots} := by
  rintro _ ⟨slot, rfl, hslot⟩ _ ⟨other, rfl, hother⟩ heq
  rw [hinj hslot hother (EntityRef.library.inj heq)]

namespace Table.Copies

/-- Copies that are wired by the same rows get the copies of the same parents. -/
theorem inherit (h : Copies copy small.table large.table)
    (hsound : small.table.Sound .library fun _ => False)
    (hindex : ∀ id, large.table.typeSlot? id = (small.table.typeSlot? id).map copy)
    (project : ProjectId) :
    Copies copy (small.inherit .library (fun _ => none) store project).table
      (large.inherit .library (fun _ => none) store project).table where
  injective := by
    rw [Draft.size_inherit]
    exact h.injective
  entity slot entity hentity := by
    rw [Draft.getElem?_inherit] at hentity
    obtain ⟨base, hbase, rfl⟩ := Option.map_eq_some_iff.1 hentity
    obtain ⟨moved, hmoved, hname, hkind, hid, hparents⟩ := h.entity slot base hbase
    have hslot : slot < small.table.size := (Array.getElem?_eq_some_iff.1 hbase).1
    have hlinks : parentsIn (copy slot) (large.table.edges .library (fun _ => none) store project) =
        (parentsIn slot (small.table.edges .library (fun _ => none) store project)).map
          (EntityRef.copied copy) := by
      rw [edges_copied hindex]
      apply parentsIn_map
      intro child parent hedge heq
      exact h.injective (slots_of_edge hsound hedge).1 hslot heq
    obtain ⟨hname', hkind', hid'⟩ := base.addParents_fields
      (parentsIn slot (small.table.edges .library (fun _ => none) store project))
    obtain ⟨hname'', hkind'', hid''⟩ := moved.addParents_fields
      (parentsIn (copy slot) (large.table.edges .library (fun _ => none) store project))
    refine ⟨_, by rw [Draft.getElem?_inherit, hmoved]; rfl, ?_, ?_, ?_, ?_⟩
    · rw [hname'', hname', hname]
    · rw [hkind'', hkind', hkind]
    · rw [hid'', hid', hid]
    · rw [hlinks]
      refine Entity.parents_addParents_map ((EntityRef.copied_injOn h.injective).mono ?_) hparents
      rintro ref (href | href)
      · have hmem := Array.mem_toList_iff.2 (Array.mem_of_getElem? hbase)
        exact (hsound.parent base hmem ref href).resolve_right not_false
      · exact (slots_of_edge hsound (edge_of_mem_parentsIn href)).2

theorem inherit_foldl (projects : List ProjectId) {small large : Draft}
    (h : Copies copy small.table large.table)
    (hsound : small.table.Sound .library fun _ => False)
    (hindex : ∀ id, large.table.typeSlot? id = (small.table.typeSlot? id).map copy) :
    Copies copy
      (projects.foldl (Draft.inherit .library (fun _ => none) store) small).table
      (projects.foldl (Draft.inherit .library (fun _ => none) store) large).table := by
  induction projects generalizing small large with
  | nil => exact h
  | cons project projects ih =>
    refine ih (h.inherit hsound hindex project) (Draft.inherit_sound hsound (by simp) _ _) ?_
    intro id
    simp only [typeSlot?, Draft.typeSlots_inherit]
    exact hindex id

end Table.Copies

end Wiring

end Referent
