import Referent.Proofs.Supertypes

/-!
# What a failed load leaves behind

A load that fails keeps the rows that it has added, which are the first rows of the list, and the
supertypes that it has wired (`Draft.Leaves`). When the list is loaded again, all its rows go behind
those. Each name that the failed load bound stays with the entity that the failed load made, while
the index by id moves on to the entity that is made now. So names lead where they would have led
without the failure (`Leaves.slot?_again`), but the types among these entities are not the ones that
are wired (`Leaves.getElem?_again`).

Apart from these the draft comes out the same in other slots, if the failed load gave no supertypes
to what it found (`Leaves.replicated`).
-/

namespace Referent

open LibraryModel (wiringOrder assembled)

/-- What a load of libraries leaves when it fails: it has added some first rows, and, once all of
them were added, has wired them by the inheritance of some first libraries. -/
structure Draft.Leaves (mode : Mode) (store : Store) (libraries : List ProjectId) (start : Draft)
    (before : List EntityRow) (order : List ProjectId) (left : Draft) : Prop where
  added : before <+: store.declarationsOf libraries
  wired : order <+: wiringOrder mode libraries
  complete : order ≠ [] → before = store.declarationsOf libraries
  left_eq : left = order.foldl (Draft.inherit .library (fun _ => none) store)
    (before.foldl (Draft.addRow .library) start)

theorem Draft.Partial.leaves {mode : Mode} {store : Store} {libraries : List ProjectId}
    {start left : Draft} (h : Draft.Partial mode store libraries start left) :
    ∃ before order, Draft.Leaves mode store libraries start before order left := by
  cases h with
  | @declarations loaded rest hsplit =>
    refine ⟨store.declarationsOf loaded, [], ?_, ⟨wiringOrder mode libraries, rfl⟩, nofun, ?_⟩
    · rw [hsplit]
      exact ⟨store.declarationsOf rest, List.flatMap_append.symm⟩
    · rw [declare_foldl, List.foldl_nil]
  | @inheritance loaded rest hmode hsplit =>
    refine ⟨store.declarationsOf libraries, loaded, ⟨[], List.append_nil _⟩, ?_, fun _ => rfl, ?_⟩
    · rw [hmode, hsplit]
      exact ⟨rest, rfl⟩
    · rw [declare_foldl]

/-! ## Where entities go -/

/-- Where a name leads after another attempt that leads to a slot after the first: the slots that
the failed load has filled stay, and those behind move. -/
def namedAgain (start : Nat) (before : List EntityRow) (slot : Nat) : Nat :=
  if slot < start + before.length then slot else slot + before.length

/-- Where the entity of a slot is wired after another attempt: in its own slot, unless it is a type
that the failed load has made. -/
def wiredAgain (mode : Mode) (start : Nat) (before : List EntityRow) (slot : Nat) : Nat :=
  if slot < start then slot
  else match before[slot - start]? with
    | some row =>
      if mode = .virtual ∧ row.kind.isClassLike = true then slot + before.length else slot
    | none => slot + before.length

section Slots

variable {mode : Mode} {start slot : Nat} {before : List EntityRow}

theorem wiredAgain_old (h : slot < start) : wiredAgain mode start before slot = slot :=
  if_pos h

theorem wiredAgain_behind (h : start + before.length ≤ slot) :
    wiredAgain mode start before slot = slot + before.length := by
  rw [wiredAgain, if_neg (by omega), List.getElem?_eq_none (by omega)]

theorem wiredAgain_before (mode : Mode) (start : Nat) {i : Nat} {row : EntityRow}
    (hrow : before[i]? = some row) :
    wiredAgain mode start before (start + i) =
      if mode = .virtual ∧ row.kind.isClassLike = true then start + i + before.length
      else start + i := by
  rw [wiredAgain, if_neg (by omega), Nat.add_sub_cancel_left, hrow]

/-- A slot stays, or moves behind all that the failed load has filled. -/
theorem wiredAgain_cases (mode : Mode) (start : Nat) (before : List EntityRow) (slot : Nat) :
    wiredAgain mode start before slot = slot ∧ slot < start + before.length ∨
      wiredAgain mode start before slot = slot + before.length ∧ start ≤ slot := by
  by_cases hold : slot < start
  · exact .inl ⟨wiredAgain_old hold, by omega⟩
  · by_cases hbehind : start + before.length ≤ slot
    · exact .inr ⟨wiredAgain_behind hbehind, by omega⟩
    · have hrow := List.getElem?_eq_getElem (show slot - start < before.length by omega)
      have hslot := wiredAgain_before mode start hrow
      rw [show start + (slot - start) = slot by omega] at hslot
      rw [hslot]
      split
      · exact .inr ⟨rfl, by omega⟩
      · exact .inl ⟨rfl, by omega⟩

theorem wiredAgain_injective (mode : Mode) (start : Nat) (before : List EntityRow) :
    Function.Injective (wiredAgain mode start before) := by
  intro slot other heq
  rcases wiredAgain_cases mode start before slot with ⟨h, hlt⟩ | ⟨h, hle⟩ <;>
    rcases wiredAgain_cases mode start before other with ⟨h', hlt'⟩ | ⟨h', hle'⟩ <;> omega

theorem namedAgain_injective (start : Nat) (before : List EntityRow) :
    Function.Injective (namedAgain start before) := by
  intro slot other heq
  unfold namedAgain at heq
  split at heq <;> split at heq <;> omega

end Slots

/-- Parents that are added again make no difference. -/
theorem Entity.addParents_again (entity : Entity) (parents more : List EntityRef) :
    (entity.addParents parents).addParents (parents ++ more) =
      entity.addParents (parents ++ more) := by
  have hsame : (entity.addParents parents).addParents parents = entity.addParents parents :=
    addParents_of_subset fun _ hparent => mem_addParents.2 (.inr hparent)
  rw [addParents_append, addParents_append, hsame]

/-- A name clashes as often as it is claimed, but for its first claim if it was free. -/
theorem count_clashes (taken : String → Bool) (names : List String) (name : String) :
    (clashes taken names).count (.duplicateName name) =
      if taken name then names.count name else names.count name - 1 := by
  induction names generalizing taken with
  | nil => simp [clashes]
  | cons other names ih =>
    rw [clashes, List.count_append, ih, List.count_cons]
    by_cases hname : other = name
    · subst hname
      cases taken other <;> simp [Nat.add_comm]
    · cases taken other <;> simp [hname]

namespace Draft.Leaves

variable {mode : Mode} {rootType : String} {store : Store} {libraries : List ProjectId}
  {start left : Draft} {before : List EntityRow} {order : List ProjectId}

/-! ## The draft that is left -/

theorem sameIndexes (h : Leaves mode store libraries start before order left) :
    left.table.SameIndexes (before.foldl (addRow .library) start).table := by
  rw [h.left_eq]
  exact sameIndexes_inherit_foldl _ store order

theorem size (h : Leaves mode store libraries start before order left) :
    left.table.size = start.table.size + before.length := by
  rw [h.sameIndexes.size, size_addRows]

theorem slot? (h : Leaves mode store libraries start before order left) (name : String) :
    left.table.slot? name =
      (start.table.slot? name).or (claimSlot? name start.table.size before) := by
  rw [Table.slot?, h.sameIndexes.slots]
  exact slot?_addRows .library start before name

theorem typeSlots (h : Leaves mode store libraries start before order left) :
    left.table.typeSlots.isSome = start.table.typeSlots.isSome := by
  rw [h.sameIndexes.typeSlots, tracks_addRows]

theorem typeSlot? (h : Leaves mode store libraries start before order left)
    (htracks : start.table.typeSlots.isSome) (id : EntityId) : left.table.typeSlot? id =
      (classSlot? id start.table.size before).or (start.table.typeSlot? id) := by
  rw [Table.typeSlot?, h.sameIndexes.typeSlots]
  exact typeSlot?_addRows .library start before htracks id

/-- The rows that were added are the first ones. -/
theorem getElem?_added (h : Leaves mode store libraries start before order left) {i : Nat}
    (hi : i < before.length) : (store.declarationsOf libraries)[i]? = before[i]? := by
  obtain ⟨rest, hrest⟩ := h.added
  rw [← hrest, List.getElem?_append_left hi]

/-- The failed load wires types only, so what else it has made is left as it was made. -/
theorem getElem?_left (h : Leaves mode store libraries start before order left)
    (hstart : start.table.Sound .library fun _ => False)
    (htracks : mode = .virtual → start.table.typeSlots.isSome) {i : Nat} {row : EntityRow}
    (hrow : before[i]? = some row) (hclass : ¬ (mode = .virtual ∧ row.kind.isClassLike = true)) :
    left.table.arena[start.table.size + i]? = some (row.entity .library) := by
  have hmade : (before.foldl (addRow .library) start).table.arena[start.table.size + i]? =
      some (row.entity .library) := by
    rw [getElem?_addRows, if_neg (by omega), Nat.add_sub_cancel_left, hrow, Option.map_some]
  have hunwired : order.flatMap (fun project => parentsIn (start.table.size + i)
      ((before.foldl (addRow .library) start).table.edges .library (fun _ => none) store
        project)) = [] := by
    rw [List.flatMap_eq_nil_iff]
    intro project hproject
    have hvirtual : mode = .virtual := by
      cases mode with
      | plain =>
        have := h.wired.subset hproject
        cases this
      | «virtual» => rfl
    apply Table.parentsIn_edges_eq_nil
    intro id hleads
    rw [typeSlot?_addRows .library start before (htracks hvirtual), Option.or_eq_some_iff] at hleads
    rcases hleads with hleads | ⟨-, hleads⟩
    · obtain ⟨-, found, hfound, hkind, -⟩ := row_of_classSlot? hleads
      rw [Nat.add_sub_cancel_left, hrow, Option.some.injEq] at hfound
      subst hfound
      exact hclass ⟨hvirtual, hkind⟩
    · have hlt := hstart.typeSlot_lt _ _ hleads
      omega
  rw [h.left_eq, getElem?_inherit_foldl, hmade, hunwired]
  rfl

/-! ## Another attempt -/

/-- What another attempt declares. -/
def again (store : Store) (libraries : List ProjectId) (draft : Draft) : Draft :=
  (store.declarationsOf libraries).foldl (addRow .library) draft

/-- A type that the failed load has loaded is loaded again. -/
theorem classSlot?_before_eq_none (h : Leaves mode store libraries start before order left)
    {id : EntityId} {slot other : Nat}
    (hnone : classSlot? id slot (store.declarationsOf libraries) = none) :
    classSlot? id other before = none := by
  rw [← Option.not_isSome_iff_eq_none, classSlot?_isSome] at hnone ⊢
  rintro ⟨row, hrow, htype⟩
  exact hnone ⟨row, h.added.subset hrow, htype⟩

/-- The index by id moves on to the entities that are made now. -/
theorem typeSlot?_again (h : Leaves mode store libraries start before order left)
    (hstart : start.table.Sound .library fun _ => False) (hmode : mode = .virtual)
    (htracks : start.table.typeSlots.isSome) (id : EntityId) :
    (again store libraries left).table.typeSlot? id =
      ((again store libraries start).table.typeSlot? id).map
        (wiredAgain mode start.table.size before) := by
  rw [again, again, typeSlot?_addRows _ _ _ (h.typeSlots.trans htracks), h.typeSlot? htracks,
    typeSlot?_addRows _ _ _ htracks, h.size, classSlot?_add]
  cases hslot : classSlot? id start.table.size (store.declarationsOf libraries) with
  | none =>
    rw [h.classSlot?_before_eq_none hslot]
    cases hold : start.table.typeSlot? id with
    | none => rfl
    | some slot => simp [wiredAgain_old (hstart.typeSlot_lt id slot hold)]
  | some slot =>
    simp only [Option.map_some, Option.some_or, Option.some.injEq]
    obtain ⟨hle, row, hrow, hclass, -⟩ := row_of_classSlot? hslot
    by_cases hbehind : start.table.size + before.length ≤ slot
    · rw [wiredAgain_behind hbehind]
    · have hbefore : before[slot - start.table.size]? = some row := by
        rw [← hrow, h.getElem?_added (by omega)]
      have hwired := wiredAgain_before mode start.table.size hbefore
      rw [if_pos ⟨hmode, hclass⟩, show start.table.size + (slot - start.table.size) = slot by omega]
        at hwired
      exact hwired.symm

/-- The model that another attempt makes of a draft. -/
def modelAgain (mode : Mode) (rootType : String) (store : Store) (libraries : List ProjectId)
    (draft : Draft) : LibraryModel :=
  assembled mode rootType draft store (store.declarationsOf libraries) (wiringOrder mode libraries)

theorem modelAgain_eq (mode : Mode) (rootType : String) (store : Store)
    (libraries : List ProjectId) (draft : Draft) :
    modelAgain mode rootType store libraries draft =
      { mode, rootType, draft := draft.fill mode store libraries } := by
  rw [modelAgain, assembled, ← declare_foldl]
  cases mode <;> rfl

/-- A name leads to the slot that it would lead to without the failure, moved if that is behind
what the failed load has filled. -/
theorem slot?_again (h : Leaves mode store libraries start before order left)
    (hstart : start.table.Sound .library fun _ => False) (rootType name : String) :
    (modelAgain mode rootType store libraries left).draft.table.slot? name =
      ((modelAgain mode rootType store libraries start).draft.table.slot? name).map
        (namedAgain start.table.size before) := by
  obtain ⟨rest, hrest⟩ := h.added
  rw [modelAgain, modelAgain, LibraryModel.slot?_assembled, LibraryModel.slot?_assembled, h.slot?,
    h.size, claimSlot?_add, ← hrest, claimSlot?_append]
  cases hold : start.table.slot? name with
  | some slot =>
    have hlt := hstart.slot_lt name slot hold
    simp [namedAgain, show slot < start.table.size + before.length by omega]
  | none =>
    cases hbefore : claimSlot? name start.table.size before with
    | some slot => simp [namedAgain, (claimSlot?_bounds hbefore).2]
    | none =>
      cases hrest : claimSlot? name (start.table.size + before.length) rest with
      | none => rfl
      | some slot =>
        have hge := (claimSlot?_bounds hrest).1
        simp [namedAgain, show ¬ slot < start.table.size + before.length by omega]

theorem id_left (h : Leaves mode store libraries start before order left) (slot : Nat) :
    (left.table.arena[slot]?).map (·.id) =
      ((before.foldl (addRow .library) start).table.arena[slot]?).map (·.id) := by
  rw [h.left_eq, id_inherit_foldl]

/-- Where a name leads there is an entity with the id that it would have without the failure. -/
theorem idOf?_again (h : Leaves mode store libraries start before order left) (rootType : String)
    (slot : Nat) : (modelAgain mode rootType store libraries left).idOf?
        (.library (namedAgain start.table.size before slot)) =
      (modelAgain mode rootType store libraries start).idOf? (.library slot) := by
  rw [modelAgain, modelAgain, LibraryModel.idOf?_assembled, LibraryModel.idOf?_assembled,
    getElem?_addRows, getElem?_addRows, h.size]
  by_cases hslot : slot < start.table.size + before.length
  · rw [namedAgain, if_pos hslot, if_pos hslot, h.id_left, getElem?_addRows]
    split
    · rfl
    · rw [h.getElem?_added (by omega)]
  · rw [namedAgain, if_neg hslot, if_neg (by omega), if_neg (by omega)]
    congr 3
    omega

/-- Names denote entities with the ids that they would have without the failure. -/
theorem id?_again (h : Leaves mode store libraries start before order left)
    (hstart : start.table.Sound .library fun _ => False) (rootType name : String) :
    (modelAgain mode rootType store libraries left).id? name =
      (modelAgain mode rootType store libraries start).id? name := by
  rw [LibraryModel.id?, LibraryModel.id?, LibraryModel.find?, LibraryModel.find?,
    h.slot?_again hstart]
  cases (modelAgain mode rootType store libraries start).draft.table.slot? name with
  | none => rfl
  | some slot => exact h.idOf?_again rootType slot

/-- If the failed load gave no supertypes to what it found, all entities have copies after another
attempt: where they are wired. -/
theorem copies_again (h : Leaves mode store libraries start before order left)
    (hstart : start.table.Sound .library fun _ => False)
    (htracks : mode = .virtual → start.table.typeSlots.isSome)
    (hold : ∀ slot < start.table.size, left.table.arena[slot]? = start.table.arena[slot]?) :
    Table.Copies (wiredAgain mode start.table.size before) (again store libraries start).table
      (again store libraries left).table where
  injective := (wiredAgain_injective mode start.table.size before).injOn
  entity slot entity hentity := by
    rw [again, getElem?_addRows] at hentity
    rw [again, getElem?_addRows, h.size]
    by_cases hfound : slot < start.table.size
    · rw [if_pos hfound] at hentity
      rw [wiredAgain_old hfound, if_pos (by omega), hold slot hfound]
      refine ⟨entity, hentity, rfl, rfl, rfl, ?_⟩
      have hmem := Array.mem_toList_iff.2 (Array.mem_of_getElem? hentity)
      conv_lhs => rw [← List.map_id entity.parents]
      apply List.map_congr_left
      intro ref href
      obtain ⟨other, rfl, hlt⟩ := (hstart.parent entity hmem ref href).resolve_right not_false
      rw [EntityRef.copied, wiredAgain_old hlt, id]
    · rw [if_neg hfound] at hentity
      obtain ⟨row, hrow, rfl⟩ := Option.map_eq_some_iff.1 hentity
      refine ⟨row.entity .library, ?_, rfl, rfl, rfl, rfl⟩
      rcases wiredAgain_cases mode start.table.size before slot with ⟨hstays, hlt⟩ | ⟨hmoves, -⟩
      · have hslot : start.table.size + (slot - start.table.size) = slot := by omega
        have hbefore : before[slot - start.table.size]? = some row := by
          rw [← hrow, h.getElem?_added (by omega)]
        have hwired := wiredAgain_before mode start.table.size hbefore
        have hleft := h.getElem?_left hstart htracks hbefore (by
          intro htype
          rw [if_pos htype, hslot] at hwired
          omega)
        rw [hslot] at hleft
        rw [hstays, if_pos hlt]
        exact hleft
      · rw [hmoves, if_neg (by omega), Nat.add_sub_add_right, hrow, Option.map_some]

theorem kinds_added (h : Leaves mode store libraries start before order left)
    (hstore : store.Sound) : ∀ row ∈ before, row.kind ∈ EntityKind.declared :=
  fun row hrow => kind_of_mem_declarationsOf hstore row (h.added.subset hrow)

theorem sound (h : Leaves mode store libraries start before order left) (hstore : store.Sound)
    (hstart : start.table.Sound .library fun _ => False) :
    left.table.Sound .library fun _ => False := by
  have hadded := hstart.addRows .library (h.kinds_added hstore)
  rw [h.left_eq]
  exact LibraryModel.inherit_foldl_sound store order hadded

/-- The model that another attempt makes replicates the one without the failure, if the failed load
gave no supertypes to what it found. -/
theorem replicated (h : Leaves mode store libraries start before order left) (hstore : store.Sound)
    (hstart : start.table.Sound .library fun _ => False)
    (htracks : mode = .virtual → start.table.typeSlots.isSome)
    (hold : ∀ slot < start.table.size, left.table.arena[slot]? = start.table.arena[slot]?)
    (rootType : String) :
    LibraryModel.Replicated (wiredAgain mode start.table.size before)
      (namedAgain start.table.size before)
      (modelAgain mode rootType store libraries start)
      (modelAgain mode rootType store libraries left) where
  rootType := rfl
  sound := LibraryModel.assembled_sound hstart (kind_of_mem_declarationsOf hstore)
  sound' := LibraryModel.assembled_sound (h.sound hstore hstart) (kind_of_mem_declarationsOf hstore)
  copies := by
    have hcopies := h.copies_again hstart htracks hold
    cases mode with
    | plain => exact hcopies
    | «virtual» =>
      exact hcopies.inherit_foldl libraries
        (hstart.addRows .library (kind_of_mem_declarationsOf hstore))
        (h.typeSlot?_again hstart rfl (htracks rfl))
  name := h.slot?_again hstart rootType
  id slot _ := h.idOf?_again rootType slot
  distinct := (namedAgain_injective start.table.size before).injOn

/-- No id leads to what the failed load has made, so another attempt leaves it as it is. -/
theorem getElem?_again (h : Leaves mode store libraries start before order left)
    (hstart : start.table.Sound .library fun _ => False)
    (htracks : mode = .virtual → start.table.typeSlots.isSome) (rootType : String) {slot : Nat}
    (hge : start.table.size ≤ slot) (hlt : slot < left.table.size) :
    (modelAgain mode rootType store libraries left).draft.table.arena[slot]? =
      left.table.arena[slot]? := by
  have hkept : (again store libraries left).table.arena[slot]? = left.table.arena[slot]? := by
    rw [again, getElem?_addRows, if_pos hlt]
  show ((wiringOrder mode libraries).foldl (inherit .library (fun _ => none) store)
    (again store libraries left)).table.arena[slot]? = _
  cases mode with
  | plain => exact hkept
  | «virtual» =>
    have hindex (id : EntityId) : (again store libraries left).table.typeSlot? id ≠ some slot := by
      intro hleads
      have htracksLeft := h.typeSlots.trans (htracks rfl)
      rw [again, typeSlot?_addRows _ _ _ htracksLeft, Option.or_eq_some_iff] at hleads
      rcases hleads with hleads | ⟨hnone, hleads⟩
      · have := (classSlot?_bounds hleads).1
        omega
      · rw [h.typeSlot? (htracks rfl), h.classSlot?_before_eq_none hnone, Option.none_or] at hleads
        have := hstart.typeSlot_lt id slot hleads
        omega
    have hunwired : libraries.flatMap (fun project => parentsIn slot
        ((again store libraries left).table.edges .library (fun _ => none) store project)) = [] :=
      List.flatMap_eq_nil_iff.2 fun project _ => Table.parentsIn_edges_eq_nil hindex
    rw [wiringOrder, getElem?_inherit_foldl, hunwired, hkept]
    cases left.table.arena[slot]? <;> rfl

/-- What a row of the failed load became is of the kind of the row. -/
theorem kind_left (h : Leaves mode store libraries start before order left) {i : Nat}
    {row : EntityRow} (hrow : before[i]? = some row) :
    ∃ entity, left.table.arena[start.table.size + i]? = some entity ∧ entity.kind = row.kind := by
  refine ⟨_, ?_, ((row.entity .library).addParents_fields (order.flatMap fun project =>
    parentsIn (start.table.size + i) ((before.foldl (addRow .library) start).table.edges .library
      (fun _ => none) store project))).2.1⟩
  rw [h.left_eq, getElem?_inherit_foldl, getElem?_addRows, if_neg (by omega),
    Nat.add_sub_cancel_left, hrow, Option.map_some, Option.map_some]

/-- A name leads to where its entity is wired, unless the failed load has bound it to a type. -/
theorem named_eq_wired (h : Leaves mode store libraries start before order left)
    (hstart : start.table.Sound .library fun _ => False) {rootType name : String} {slot : Nat}
    (hslot : (modelAgain mode rootType store libraries start).draft.table.slot? name = some slot)
    (hother : mode = .virtual → start.table.slot? name = none → ∀ slot entity,
      left.table.slot? name = some slot → left.table.arena[slot]? = some entity →
        entity.kind.isClassLike = false) :
    namedAgain start.table.size before slot = wiredAgain mode start.table.size before slot := by
  by_cases hold : slot < start.table.size
  · rw [namedAgain, if_pos (by omega), wiredAgain_old hold]
  by_cases hbehind : start.table.size + before.length ≤ slot
  · rw [namedAgain, if_neg (by omega), wiredAgain_behind hbehind]
  have hindex : start.table.size + (slot - start.table.size) = slot := by omega
  have hrow := List.getElem?_eq_getElem (show slot - start.table.size < before.length by omega)
  -- The name was free, and one of the rows of the failed load took it.
  rw [modelAgain, LibraryModel.slot?_assembled] at hslot
  have hfree : start.table.slot? name = none := by
    cases hfound : start.table.slot? name with
    | none => rfl
    | some found =>
      have hlt := hstart.slot_lt name found hfound
      rw [hfound, Option.some_or, Option.some.injEq] at hslot
      omega
  have hbound : left.table.slot? name = some slot := by
    obtain ⟨rest, hrest⟩ := h.added
    rw [h.slot?, hfree, Option.none_or]
    rw [hfree, Option.none_or, ← hrest, claimSlot?_append, Option.or_eq_some_iff] at hslot
    rcases hslot with hslot | ⟨-, hslot⟩
    · exact hslot
    · have := (claimSlot?_bounds hslot).1
      omega
  obtain ⟨entity, hentity, hkind⟩ := h.kind_left hrow
  rw [hindex] at hentity
  have hwired := wiredAgain_before mode start.table.size hrow
  rw [hindex, if_neg] at hwired
  · rw [namedAgain, if_pos (by omega), hwired]
  · rintro ⟨hvirtual, hclass⟩
    have hnot := hother hvirtual hfree slot entity hbound hentity
    rw [hkind, hclass] at hnot
    cases hnot

/-! ## What is recorded -/

theorem toList (h : Leaves mode store libraries start before order left) :
    left.diagnostics.toList = start.diagnostics.toList ++
      clashes start.table.binds (before.flatMap EntityRow.claims) ++
      order.flatMap fun project => missingIn ((before.foldl (addRow .library) start).table.edges
        .library (fun _ => none) store project) := by
  rw [h.left_eq, toList_inherit_foldl, toList_addRows]

/-- Another attempt misses what the first one would have missed. -/
theorem knows_again (h : Leaves mode store libraries start before order left)
    (htracks : start.table.typeSlots.isSome) :
    left.table.knows (store.declarationsOf libraries) =
      start.table.knows (store.declarationsOf libraries) := by
  funext id
  rw [Table.knows, Table.knows, h.typeSlot? htracks, Option.isSome_or]
  cases hslot : classSlot? id start.table.size before with
  | none => simp
  | some slot =>
    obtain ⟨row, hrow, hclass, hid⟩ := classSlot?_isSome.1 (Option.isSome_of_eq_some hslot)
    have hany : (store.declarationsOf libraries).any
        (fun row => row.kind.isClassLike && row.id == id) = true :=
      List.any_eq_true.2 ⟨row, h.added.subset hrow, by simp [hclass, hid]⟩
    rw [hany, Bool.true_or, Bool.true_or]

theorem flaws_again (h : Leaves mode store libraries start before order left)
    (htracks : mode = .virtual → start.table.typeSlots.isSome) : ∃ missing,
    flaws mode store libraries start.table (fun _ => false) = clashes start.table.binds
        ((store.declarationsOf libraries).flatMap EntityRow.claims) ++ missing ∧
      flaws mode store libraries left.table (fun _ => false) = clashes left.table.binds
        ((store.declarationsOf libraries).flatMap EntityRow.claims) ++ missing := by
  cases mode with
  | plain => exact ⟨[], rfl, rfl⟩
  | «virtual» => exact ⟨_, rfl, by rw [flaws, h.knows_again (htracks rfl)]⟩

/-- The failed load has bound a name that was free for one of its rows. -/
theorem mem_claims_of_bound (h : Leaves mode store libraries start before order left)
    {name : String} (hfree : start.table.slot? name = none)
    (hbound : (left.table.slot? name).isSome = true) :
    name ∈ before.flatMap EntityRow.claims := by
  rw [h.slot?, hfree, Option.none_or, claimSlot?_eq, Option.isSome_map, List.find?_isSome] at hbound
  obtain ⟨row, hrow, hclaims⟩ := hbound
  exact List.mem_flatMap.2 ⟨row, hrow, of_decide_eq_true hclaims⟩

/-- Every name that a row of the failed load claimed clashes once more than without the failure. -/
theorem count_again (h : Leaves mode store libraries start before order left)
    (htracks : mode = .virtual → start.table.typeSlots.isSome) {name : String}
    (hname : name ∈ before.flatMap EntityRow.claims) :
    (start.diagnostics.toList ++ flaws mode store libraries start.table fun _ => false).count
        (.duplicateName name) <
      (left.diagnostics.toList ++ flaws mode store libraries left.table fun _ => false).count
        (.duplicateName name) := by
  obtain ⟨missing, hflaws, hflaws'⟩ := h.flaws_again htracks
  have hbinds : left.table.binds name = true := by
    obtain ⟨row, hrow, hclaims⟩ := List.mem_flatMap.1 hname
    rw [Table.binds, h.slot?, Option.isSome_or, claimSlot?_eq, Option.isSome_map, Bool.or_eq_true,
      List.find?_isSome]
    exact .inr ⟨row, hrow, decide_eq_true hclaims⟩
  have hclaimed := List.count_pos_iff.2 hname
  obtain ⟨rest, hrest⟩ := h.added
  rw [hflaws, hflaws', h.toList]
  simp only [List.count_append, count_clashes, hbinds, if_true, ← hrest, List.flatMap_append]
  split <;> omega

/-- A row claims some name, so a failed load that has added rows makes names clash. -/
theorem exists_claimed (hbefore : before ≠ []) :
    ∃ name, name ∈ before.flatMap EntityRow.claims := by
  obtain ⟨row, rows, rfl⟩ := List.exists_cons_of_ne_nil hbefore
  obtain ⟨name, hname⟩ : ∃ name, name ∈ row.claims := by
    unfold EntityRow.claims
    cases row.params with
    | none => exact ⟨row.name, by simp⟩
    | some params => exact ⟨row.name ++ params, by simp⟩
  exact ⟨name, List.mem_flatMap.2 ⟨row, List.mem_cons_self, hname⟩⟩

/-! ## A failed load that changed nothing -/

/-- A failed load that has added no rows leaves all names and ids as they are. -/
theorem flaws_unchanged (h : Leaves mode store libraries start [] order left) :
    flaws mode store libraries left.table (fun _ => false) =
      flaws mode store libraries start.table fun _ => false := by
  have hsame := h.sameIndexes
  have hbinds : left.table.binds = start.table.binds := by
    funext name
    rw [Table.binds, Table.binds, Table.slot?, Table.slot?, hsame.slots, List.foldl_nil]
  have hknows : left.table.knows = start.table.knows := by
    funext rows id
    rw [Table.knows, Table.knows, Table.typeSlot?, Table.typeSlot?, hsame.typeSlots, List.foldl_nil]
  unfold flaws
  rw [hbinds, hknows]

/-- Supertypes that the failed load has wired are wired by another attempt as well, so there is no
difference once nothing was added and nothing was recorded. -/
theorem fill_unchanged (h : Leaves mode store libraries start [] order left)
    (htracks : mode = .virtual → start.table.typeSlots.isSome)
    (hdiagnostics : left.diagnostics.toList = start.diagnostics.toList) :
    left.fill mode store libraries = start.fill mode store libraries := by
  have htracksLeft : mode = .virtual → left.table.typeSlots.isSome :=
    fun hmode => h.typeSlots.trans (htracks hmode)
  by_cases horder : order = []
  · have hleft := h.left_eq
    rw [horder] at hleft
    rw [hleft, List.foldl_nil, List.foldl_nil]
  -- Everything is declared before anything is wired, so there was nothing to declare.
  have hrows : store.declarationsOf libraries = [] := (h.complete horder).symm
  have hvirtual : mode = .virtual := by
    cases mode with
    | plain => exact absurd (List.prefix_nil.1 h.wired) horder
    | «virtual» => rfl
  subst hvirtual
  have hfill (draft : Draft) : draft.fill .virtual store libraries =
      libraries.foldl (inherit .library (fun _ => none) store) draft := by
    rw [fill, declare_foldl, hrows, List.foldl_nil]
  have htable : (left.fill .virtual store libraries).table =
      (start.fill .virtual store libraries).table := by
    rw [hfill, hfill]
    have hsame := h.sameIndexes
    have hleft := sameIndexes_inherit_foldl left store libraries
    have hstart := sameIndexes_inherit_foldl start store libraries
    refine Table.SameIndexes.eq_of_arena ⟨?_, ?_, ?_⟩ fun slot => ?_
    · rw [hleft.size, hsame.size, hstart.size, List.foldl_nil]
    · rw [hleft.slots, hsame.slots, hstart.slots, List.foldl_nil]
    · rw [hleft.typeSlots, hsame.typeSlots, hstart.typeSlots, List.foldl_nil]
    · have hedges : left.table.edges = start.table.edges := Table.edges_congr hsame.typeSlots
      have hwired : left = order.foldl (inherit .library (fun _ => none) store) start := h.left_eq
      obtain ⟨rest, hrest⟩ : order <+: libraries := h.wired
      rw [getElem?_inherit_foldl, getElem?_inherit_foldl, hedges, hwired, getElem?_inherit_foldl,
        Option.map_map, ← hrest]
      congr 1
      funext entity
      rw [Function.comp_apply, List.flatMap_append, Entity.addParents_again]
  have hrecorded : (left.fill .virtual store libraries).diagnostics.toList =
      (start.fill .virtual store libraries).diagnostics.toList := by
    rw [toList_fill htracksLeft, toList_fill htracks, h.flaws_unchanged, hdiagnostics]
  have hanomalies := Array.toList_inj.1 hrecorded
  generalize left.fill .virtual store libraries = one at htable hanomalies ⊢
  generalize start.fill .virtual store libraries = other at htable hanomalies ⊢
  obtain ⟨table, ⟨anomalies⟩⟩ := one
  obtain ⟨table', ⟨anomalies'⟩⟩ := other
  simp only at htable hanomalies
  rw [htable, hanomalies]

end Draft.Leaves

end Referent
