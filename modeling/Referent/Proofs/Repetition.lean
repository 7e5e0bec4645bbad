import Mathlib.Data.List.Induction
import Referent.Proofs.Replicas

/-!
# Libraries that are listed twice

Loading a library twice loads every entity of it twice. A name keeps the first copy, the index by
id keeps the last one, and wiring goes through the index. So the ids that names denote stay what
they are, but a type of a repeated library loses its supertypes under its own name: they are
those of the last copy, which no name leads to (`Displaced`). Members that such a type inherits
are not found under it, and nothing else changes (`repeated_libraries_displace_types`).
-/

namespace Referent

/-! ## Lists with repetitions -/

section Lists

variable {α β : Type} [BEq α] [LawfulBEq α]

theorem eraseDups_concat (as : List α) (a : α) :
    (as ++ [a]).eraseDups = if a ∈ as then as.eraseDups else as.eraseDups ++ [a] := by
  rw [List.eraseDups_append]
  split
  · rename_i hmem
    simp [List.removeAll, hmem]
  · rename_i hnew
    simp [List.removeAll, hnew, List.eraseDups_cons]

/-- What comes from repetitions is never found first. -/
theorem find?_flatMap_eraseDups (f : α → List β) (p : β → Bool) (as : List α) :
    (as.eraseDups.flatMap f).find? p = (as.flatMap f).find? p := by
  induction as using List.reverseRecOn with
  | nil => rfl
  | append_singleton as a ih =>
    rw [eraseDups_concat, List.flatMap_append, List.find?_append, ← ih]
    split
    · rename_i hmem
      cases hfound : (as.eraseDups.flatMap f).find? p with
      | some b => rfl
      | none =>
        rw [Option.none_or, eq_comm, List.find?_eq_none]
        intro b hb
        refine List.find?_eq_none.1 hfound b ?_
        rw [List.mem_flatMap] at hb ⊢
        obtain ⟨other, hother, hb⟩ := hb
        rw [List.mem_singleton.1 hother] at hb
        exact ⟨a, List.mem_eraseDups.2 hmem, hb⟩
    · rw [List.flatMap_append, List.find?_append]

/-- Adding the parents that come from repetitions changes nothing. -/
theorem Entity.addParents_flatMap_eraseDups (entity : Entity) (f : α → List EntityRef)
    (as : List α) : entity.addParents (as.eraseDups.flatMap f) =
      entity.addParents (as.flatMap f) := by
  induction as using List.reverseRecOn with
  | nil => rfl
  | append_singleton as a ih =>
    rw [eraseDups_concat, List.flatMap_append, addParents_append, ← ih]
    split
    · rename_i hmem
      symm
      apply addParents_of_subset
      intro parent hparent
      obtain ⟨other, hother, hparent⟩ := List.mem_flatMap.1 hparent
      rw [List.mem_singleton.1 hother] at hparent
      exact mem_addParents.2
        (.inr (List.mem_flatMap.2 ⟨a, List.mem_eraseDups.2 hmem, hparent⟩))
    · rw [List.flatMap_append, addParents_append]

end Lists

theorem mem_declarationsOf_eraseDups (store : Store) (projects : List ProjectId)
    (row : EntityRow) :
    row ∈ store.declarationsOf projects.eraseDups ↔ row ∈ store.declarationsOf projects := by
  simp only [Store.declarationsOf, List.mem_flatMap, List.mem_eraseDups]

/-- A declaration is loaded as often as its project is listed. -/
theorem count_declarationsOf {store : Store} (hstore : store.Sound) {row : EntityRow}
    (hrow : row ∈ store.entities.toList) (hkind : row.kind ∈ EntityKind.declared)
    (projects : List ProjectId) :
    (store.declarationsOf projects).count row = projects.count row.project := by
  induction projects with
  | nil => rfl
  | cons project projects ih =>
    have hsplit : store.declarationsOf (project :: projects) =
        store.entitiesOf project EntityKind.declared ++ store.declarationsOf projects :=
      List.flatMap_cons
    have hnodup := hstore.nodup_entitiesOf project EntityKind.declared
    rw [hsplit, List.count_append, ih, List.count_cons, Nat.add_comm]
    congr 1
    have hmem : row ∈ store.entitiesOf project EntityKind.declared ↔ project = row.project := by
      simp only [hstore.entitiesOf_eq, List.mem_filter, decide_eq_true_eq, List.contains_iff_mem]
      exact ⟨fun h => h.2.1.symm, fun h => ⟨hrow, h.symm, hkind⟩⟩
    split
    · rename_i heq
      exact List.count_eq_one_of_mem hnodup (hmem.2 (beq_iff_eq.1 heq))
    · rename_i hne
      exact List.count_eq_zero_of_not_mem fun h => hne (beq_iff_eq.2 (hmem.1 h))

namespace LibraryModel

/-! ## The ground of a build -/

/-- What a build starts from. -/
def ground (mode : Mode) (core : Option LibraryModel) : LibraryModel :=
  core.elim (empty mode) (seeded mode)

section Ground

variable (mode : Mode) (core : Option LibraryModel)

theorem mode_ground : (ground mode core).mode = mode := by
  cases core <;> rfl

variable {core} in
theorem ground_sound (hcore : ∀ model ∈ core, model.Reached) : (ground mode core).Sound := by
  cases core with
  | none => exact prepare_sound .empty mode
  | some model => exact prepare_sound (hcore model rfl).sound mode

theorem tracks_ground : (ground .virtual core).draft.table.typeSlots.isSome := by
  cases core <;> rfl

theorem find?_ground (name : String) :
    (ground mode core).find? name = core.bind (·.find? name) := by
  cases core with
  | none => cases mode <;> simp [ground, find?, empty, prepare, Table.trackIds, Table.slot?]
  | some model => cases mode <;> rfl

theorem eq_assembled_of_build {mode : Mode} {libraries : List ProjectId}
    {core : Option LibraryModel} {desk desk' : Desk} {model : LibraryModel}
    (h : build mode libraries core desk = .ok model desk') :
    model = assembled mode (ground mode core).rootType (ground mode core).draft
      desk.corpus.store (desk.corpus.store.declarationsOf libraries)
      (wiringOrder mode libraries) := by
  have hmode := mode_ground mode core
  have hloaded : (ground mode core).loaded libraries desk = .ok model desk' := h
  rw [eq_assembled_of_loaded hloaded, hmode]

end Ground

/-! ## Types that lose their supertypes -/

/-- A build gives a name to a type of a library that it loads more than once: the core leaves
the name free, and the first declaration that claims it is this type's. -/
structure Displaced (mode : Mode) (store : Store) (core : Option LibraryModel)
    (libraries : List ProjectId) (name : String) : Prop where
  virtual : mode = .virtual
  free : core.bind (·.find? name) = none
  repeated : ∃ row, (store.declarationsOf libraries).find? (name ∈ ·.claims) = some row ∧
    row.kind.isClassLike = true ∧ 2 ≤ libraries.count row.project

/-- The copies that edges lead to. Where there are no edges, any copies will do. -/
def edgeCopy (mode : Mode) (start : Nat) (rows more : List EntityRow) : Nat → Nat :=
  match mode with
  | .plain => firstCopy start rows more
  | .virtual => wiredCopy start rows more

section Repetition

variable {mode : Mode} {rootType : String} {start : Draft} {store : Store}
  {libraries order : List ProjectId} {name : String} {row : EntityRow}

/-- Repetitions leave the wired arena what it is. -/
theorem arena_eraseDups (rows : List EntityRow) (libraries : List ProjectId) :
    (assembled mode rootType start store rows
      (wiringOrder mode libraries.eraseDups)).draft.table.arena =
    (assembled mode rootType start store rows (wiringOrder mode libraries)).draft.table.arena := by
  cases mode with
  | plain => rfl
  | virtual =>
    apply Array.ext_getElem?
    intro slot
    simp only [assembled, wiringOrder, Draft.getElem?_inherit_foldl,
      Entity.addParents_flatMap_eraseDups]

/-- The model of a list without repetitions is replicated in the model of the list. -/
theorem replicated_of_eraseDups (rootType : String) (hstore : store.Sound)
    (hstart : start.table.Sound .library fun _ => False)
    (htracks : mode = .virtual → start.table.typeSlots.isSome) (libraries : List ProjectId) :
    Replicated
      (edgeCopy mode start.table.size (store.declarationsOf libraries.eraseDups)
        (store.declarationsOf libraries))
      (firstCopy start.table.size (store.declarationsOf libraries.eraseDups)
        (store.declarationsOf libraries))
      (assembled mode rootType start store (store.declarationsOf libraries.eraseDups)
        (wiringOrder mode libraries.eraseDups))
      (assembled mode rootType start store (store.declarationsOf libraries)
        (wiringOrder mode libraries)) := by
  have hkinds : ∀ row ∈ store.declarationsOf libraries.eraseDups,
      row.kind ∈ EntityKind.declared := kind_of_mem_declarationsOf hstore
  have hmem := mem_declarationsOf_eraseDups store libraries
  have hnodup := nodup_declarationsOf hstore (Hierarchy.nodup_eraseDups libraries)
  have hfirst (name : String) :
      (store.declarationsOf libraries.eraseDups).find? (name ∈ ·.claims) =
        (store.declarationsOf libraries).find? (name ∈ ·.claims) :=
    find?_flatMap_eraseDups _ _ _
  have hforward : ∀ row ∈ store.declarationsOf libraries.eraseDups,
      row ∈ store.declarationsOf libraries := fun row => (hmem row).1
  have hrows : Replicated
      (edgeCopy mode start.table.size (store.declarationsOf libraries.eraseDups)
        (store.declarationsOf libraries))
      (firstCopy start.table.size (store.declarationsOf libraries.eraseDups)
        (store.declarationsOf libraries))
      (assembled mode rootType start store (store.declarationsOf libraries.eraseDups)
        (wiringOrder mode libraries))
      (assembled mode rootType start store (store.declarationsOf libraries)
        (wiringOrder mode libraries)) := by
    cases mode with
    | plain =>
      exact replicated hstart hkinds hnodup hmem hfirst (recopies_firstCopy hforward)
        fun hedges => absurd rfl hedges
    | virtual =>
      exact replicated hstart hkinds hnodup hmem hfirst
        (recopies_wiredCopy hforward (idsApart_declarationsOf hstore libraries))
        fun _ => typeSlot?_copied hstart (htracks rfl) hmem
  refine hrows.congr rfl (assembled_sound hstart hkinds) (arena_eraseDups _ _) ?_
  intro name
  rw [slot?_assembled, slot?_assembled]

/-- Unless it is displaced, a name leads to the copy that edges lead to. -/
theorem firstCopy_eq_edgeCopy (hstore : store.Sound) (libraries : List ProjectId)
    (hkept : mode = .virtual → start.table.slot? name = none → ∀ row,
      (store.declarationsOf libraries).find? (name ∈ ·.claims) = some row →
        row.kind.isClassLike = true → libraries.count row.project ≤ 1) {slot : Nat}
    (hslot : (start.table.slot? name).or (claimSlot? name start.table.size
      (store.declarationsOf libraries.eraseDups)) = some slot)
    (hstart : start.table.Sound .library fun _ => False) :
    firstCopy start.table.size (store.declarationsOf libraries.eraseDups)
        (store.declarationsOf libraries) slot =
      edgeCopy mode start.table.size (store.declarationsOf libraries.eraseDups)
        (store.declarationsOf libraries) slot := by
  cases mode with
  | plain => rfl
  | virtual =>
    rw [edgeCopy]
    rcases Option.or_eq_some_iff.1 hslot with hold | ⟨hfree, hnew⟩
    · have hlt := hstart.slot_lt name slot hold
      rw [firstCopy, wiredCopy, if_pos hlt, if_pos hlt]
    · rw [claimSlot?_eq] at hnew
      obtain ⟨row, hfound, rfl⟩ := Option.map_eq_some_iff.1 hnew
      have hrow := List.mem_of_find?_eq_some hfound
      obtain ⟨hmem, -, hkind⟩ := (mem_declarationsOf hstore).1 hrow
      have hforward : ∀ row ∈ store.declarationsOf libraries.eraseDups,
          row ∈ store.declarationsOf libraries :=
        fun row => (mem_declarationsOf_eraseDups store libraries row).1
      apply firstCopy_eq_wiredCopy (List.getElem?_idxOf hrow) hforward
        (idsApart_declarationsOf hstore libraries)
      intro hclass
      rw [count_declarationsOf hstore hmem hkind]
      refine hkept rfl hfree row ?_ hclass
      rw [← hfound]
      exact (find?_flatMap_eraseDups _ _ _).symm

/-- A name that is displaced leads to an entity without supertypes. -/
theorem parents_of_first_copy {rows : List EntityRow}
    (hstart : start.table.Sound .library fun _ => False)
    (htracks : start.table.typeSlots.isSome) (hfree : start.table.slot? name = none)
    (hfirst : rows.find? (name ∈ ·.claims) = some row) (hclass : row.kind.isClassLike = true)
    (hcount : 2 ≤ rows.count row) : ∃ slot entity,
      (assembled mode rootType start store rows order).find? name = some (.library slot) ∧
        (assembled mode rootType start store rows order).entity? (.library slot) =
          some entity ∧ entity.parents = [] := by
  have hrow : rows[rows.idxOf row]? = some row :=
    List.getElem?_idxOf (List.mem_of_find?_eq_some hfirst)
  have hlinks (project : ProjectId) : parentsIn (start.table.size + rows.idxOf row)
      ((rows.foldl (Draft.addRow .library) start).table.edges .library (fun _ => none) store
        project) = [] := by
    apply parentsIn_eq_nil
    rintro child parent hedge rfl
    obtain ⟨link, -, hlink⟩ := List.mem_map.1 hedge
    have hchild := child_of_edge hlink
    rw [Draft.typeSlot?_addRows _ _ _ htracks] at hchild
    rcases Option.or_eq_some_iff.1 hchild with hslot | ⟨-, hold⟩
    · -- The index leads to the last copy, which stands behind the first.
      obtain ⟨-, found, hfound, -, hid⟩ := row_of_classSlot? hslot
      rw [Nat.add_sub_cancel_left, hrow] at hfound
      obtain rfl : row = found := Option.some.inj hfound
      obtain ⟨j, hlater, hj⟩ := exists_later hcount
      obtain ⟨last, hlast, hle⟩ := le_classSlot? start.table.size hj hclass
      rw [hid, hslot, Option.some.injEq] at hlast
      omega
    · have := hstart.typeSlot_lt _ _ hold
      omega
  refine ⟨start.table.size + rows.idxOf row, row.entity .library, ?_, ?_, rfl⟩
  · rw [find?, slot?_assembled, hfree, claimSlot?_eq, hfirst]
    rfl
  · have hget : (rows.foldl (Draft.addRow .library) start).table.arena[
        start.table.size + rows.idxOf row]? = some (row.entity .library) := by
      rw [Draft.getElem?_addRows, if_neg (by omega), Nat.add_sub_cancel_left, hrow]
      rfl
    rw [entity?, assembled, Draft.getElem?_inherit_foldl, hget, Option.map_some]
    have hnone : (order.flatMap fun project =>
        parentsIn (start.table.size + rows.idxOf row)
          ((rows.foldl (Draft.addRow .library) start).table.edges .library (fun _ => none) store
            project)) = [] := by
      rw [List.flatMap_eq_nil_iff]
      exact fun project _ => hlinks project
    rw [hnone]
    rfl

end Repetition

/-! ## Repeated libraries -/

/-- A list of libraries with repetitions and the list without them make models in which names
denote entities with the same ids. Supertypes and what references resolve to are the same too,
in order, but for displaced types. A displaced type has no supertypes under its name, and of the
members that it inherits none is found. -/
theorem repeated_libraries_displace_types {store : Store} (hstore : store.Reached) {mode : Mode}
    {core : Option LibraryModel} (hcore : ∀ model ∈ core, model.Reached)
    {libraries : List ProjectId} {repeated once : LibraryModel}
    {desk₁ desk₂ desk₁' desk₂' : Desk} (hdesk₁ : desk₁.corpus.store = store)
    (hdesk₂ : desk₂.corpus.store = store)
    (hrepeated : build mode libraries core desk₁ = .ok repeated desk₁')
    (honce : build mode libraries.eraseDups core desk₂ = .ok once desk₂') :
    (∀ name, repeated.id? name = once.id? name) ∧
    (∀ name, ¬ Displaced mode store core libraries name →
      repeated.parentIds name = once.parentIds name) ∧
    (∀ name, Displaced mode store core libraries name → repeated.parentIds name = []) ∧
    (∀ name, (∀ ref, repeated.Seeks name ref →
        ¬ Displaced mode store core libraries ref.receiver) →
      repeated.outcome? name = once.outcome? name) ∧
    (∀ name ref, repeated.Seeks name ref → Displaced mode store core libraries ref.receiver →
      repeated.outcome? name = none) := by
  have hsound := hstore.sound
  have hstart := ground_sound mode hcore
  have htracks : mode = .virtual → (ground mode core).draft.table.typeSlots.isSome := by
    rintro rfl
    exact tracks_ground core
  have hrepeated := eq_assembled_of_build hrepeated
  have honce := eq_assembled_of_build honce
  rw [hdesk₁] at hrepeated
  rw [hdesk₂] at honce
  have hreplicated :=
    replicated_of_eraseDups (ground mode core).rootType hsound hstart htracks libraries
  -- Names that are not displaced lead to the copies that edges lead to.
  have hkept (name : String) (hname : ¬ Displaced mode store core libraries name) (slot : Nat)
      (hslot : once.draft.table.slot? name = some slot) :
      firstCopy (ground mode core).draft.table.size (store.declarationsOf libraries.eraseDups)
          (store.declarationsOf libraries) slot =
        edgeCopy mode (ground mode core).draft.table.size
          (store.declarationsOf libraries.eraseDups) (store.declarationsOf libraries) slot := by
    rw [honce, slot?_assembled] at hslot
    refine firstCopy_eq_edgeCopy hsound libraries ?_ hslot hstart
    intro hvirtual hfree row hfirst hclass
    by_contra hcount
    have hcore : core.bind (·.find? name) = none := by
      rw [← find?_ground mode core, find?, hfree, Option.map_none]
    exact hname ⟨hvirtual, hcore, row, hfirst, hclass, by omega⟩
  -- Names that are displaced lead to entities without supertypes.
  have hlost (name : String) (hname : Displaced mode store core libraries name) :
      ∃ slot entity, repeated.find? name = some (.library slot) ∧
        repeated.entity? (.library slot) = some entity ∧ entity.parents = [] := by
    obtain ⟨hvirtual, hfree, row, hfirst, hclass, hcount⟩ := hname
    obtain ⟨hmem, -, hkind⟩ := (mem_declarationsOf hsound).1 (List.mem_of_find?_eq_some hfirst)
    rw [← find?_ground mode core, find?, Option.map_eq_none_iff] at hfree
    rw [← count_declarationsOf hsound hmem hkind] at hcount
    rw [hrepeated]
    exact parents_of_first_copy hstart (htracks hvirtual) hfree hfirst hclass hcount
  rw [← honce, ← hrepeated] at hreplicated
  refine ⟨hreplicated.id?, ?_, ?_, ?_, ?_⟩
  · intro name hname
    exact hreplicated.parentIds (hkept name hname)
  · intro name hname
    obtain ⟨slot, entity, hfind, hentity, hparents⟩ := hlost name hname
    simp only [parentIds, hfind, Option.bind_some, hentity, Option.elim, hparents, List.map_nil]
  · intro name hname
    apply hreplicated.outcome?
    intro ref hseeks
    exact hkept ref.receiver (hname ref (hreplicated.seeks_iff.2 hseeks))
  · intro name ref hseeks hname
    obtain ⟨slot, entity, hfind, hentity, hparents⟩ := hlost ref.receiver hname
    rw [← entity?_hierarchy] at hentity
    rw [outcome?, hseeks.dispatch hfind, Hierarchy.resolve_of_no_parents hentity hparents,
      Option.map_none]

/-- The class `a.Mid` of one library and the class `b.Sub` of another extend `a.Base`, which
declares a method. -/
def siblingStore : Store :=
  ((Store.ofRows
    [{ project := ⟨10⟩, name := "a.Base", kind := .class, id := ⟨1⟩ },
     { project := ⟨10⟩, name := "a.Base.m", kind := .method, params := some "()", id := ⟨2⟩ },
     { project := ⟨10⟩, name := "a.Mid", kind := .class, id := ⟨3⟩ },
     { project := ⟨20⟩, name := "b.Sub", kind := .class, id := ⟨4⟩ }]).relate
    { kind := .extends, left := ⟨3⟩, right := ⟨1⟩, project := ⟨10⟩ }).relate
    { kind := .extends, left := ⟨4⟩, right := ⟨1⟩, project := ⟨20⟩ }

/-- When the library of `b.Sub` is listed twice, `a.Mid` keeps what it inherits and `b.Sub` does
not. -/
theorem repeated_sibling_displaced :
    let desk : Desk := { corpus := { store := siblingStore } }
    siblingStore.Reached ∧ ∃ repeated once desk₁ desk₂,
      build .virtual [⟨20⟩, ⟨10⟩, ⟨20⟩] none desk = .ok repeated desk₁ ∧
      build .virtual [⟨20⟩, ⟨10⟩] none desk = .ok once desk₂ ∧
      ¬ Displaced .virtual siblingStore none [⟨20⟩, ⟨10⟩, ⟨20⟩] "a.Mid" ∧
      repeated.parentIds "a.Mid" = once.parentIds "a.Mid" ∧
      once.parentIds "a.Mid" = [some ⟨1⟩] ∧
      Displaced .virtual siblingStore none [⟨20⟩, ⟨10⟩, ⟨20⟩] "b.Sub" ∧
      repeated.outcome? "b.Sub.m()" = none ∧
      once.outcome? "b.Sub.m()" = some (.resolved, [some ⟨2⟩]) := by
  intro desk
  have hreached : siblingStore.Reached := .relate _ (.relate _ (Store.reached_ofRows _))
  have hrepeated : succeeds (build .virtual [⟨20⟩, ⟨10⟩, ⟨20⟩] none desk) = true := by
    decide +kernel
  have honce : succeeds (build .virtual [⟨20⟩, ⟨10⟩] none desk) = true := by decide +kernel
  obtain ⟨repeated, desk₁, hrepeated⟩ := exists_ok_of_succeeds hrepeated
  obtain ⟨once, desk₂, honce⟩ := exists_ok_of_succeeds honce
  have hmid : ¬ Displaced .virtual siblingStore none [⟨20⟩, ⟨10⟩, ⟨20⟩] "a.Mid" := by
    rintro ⟨-, -, row, hfirst, -, hcount⟩
    have hproject : (siblingStore.declarationsOf [⟨20⟩, ⟨10⟩, ⟨20⟩]).find? ("a.Mid" ∈ ·.claims) =
        some { project := ⟨10⟩, name := "a.Mid", kind := .class, id := ⟨3⟩ } := by
      decide +kernel
    rw [hproject, Option.some.injEq] at hfirst
    subst hfirst
    revert hcount
    decide
  have hsub : Displaced .virtual siblingStore none [⟨20⟩, ⟨10⟩, ⟨20⟩] "b.Sub" :=
    ⟨rfl, rfl, { project := ⟨20⟩, name := "b.Sub", kind := .class, id := ⟨4⟩ },
      by decide +kernel, by decide, by decide⟩
  have hparents : once.parentIds "a.Mid" = [some ⟨1⟩] := by
    rw [eq_assembled_of_build honce]
    decide +kernel
  have houtcome : once.outcome? "b.Sub.m()" = some (.resolved, [some ⟨2⟩]) := by
    rw [eq_assembled_of_build honce]
    decide +kernel
  have hseeks : repeated.Seeks "b.Sub.m()" { receiver := "b.Sub", member := "m()" } := by
    refine ⟨?_, by decide +kernel, by decide +kernel, by decide +kernel⟩
    rw [eq_assembled_of_build hrepeated]
    decide +kernel
  have hdesk : desk.corpus.store = siblingStore := by with_reducible rfl
  have hcore : ∀ model ∈ (none : Option LibraryModel), model.Reached := fun _ h => nomatch h
  obtain ⟨-, hsame, -, -, hnone⟩ :=
    repeated_libraries_displace_types hreached hcore hdesk hdesk hrepeated honce
  exact ⟨hreached, repeated, once, desk₁, desk₂, hrepeated, honce, hmid, hsame "a.Mid" hmid,
    hparents, hsub, hnone _ _ hseeks hsub, houtcome⟩

/-- The class `a.Sub` extends `a.Base`, which declares a method. -/
def inheritingStore : Store :=
  (Store.ofRows
    [{ project := ⟨10⟩, name := "a.Base", kind := .class, id := ⟨1⟩ },
     { project := ⟨10⟩, name := "a.Base.m", kind := .method, params := some "()", id := ⟨2⟩ },
     { project := ⟨10⟩, name := "a.Sub", kind := .class, id := ⟨3⟩ }]).relate
    { kind := .extends, left := ⟨3⟩, right := ⟨1⟩, project := ⟨10⟩ }

/-- A method that a type inherits is found if its library is listed once, and not if it is listed
twice. -/
theorem inherited_method_lost_by_repetition :
    let desk : Desk := { corpus := { store := inheritingStore } }
    ∃ repeated once desk₁ desk₂, build .virtual [⟨10⟩, ⟨10⟩] none desk = .ok repeated desk₁ ∧
      build .virtual (List.eraseDups [⟨10⟩, ⟨10⟩]) none desk = .ok once desk₂ ∧
      repeated.parentIds "a.Sub" = [] ∧ once.parentIds "a.Sub" = [some ⟨1⟩] ∧
      repeated.outcome? "a.Sub.m()" = none ∧
      once.outcome? "a.Sub.m()" = some (.resolved, [some ⟨2⟩]) := by
  intro desk
  have hrepeated : succeeds (build .virtual [⟨10⟩, ⟨10⟩] none desk) = true := by decide +kernel
  have honce : succeeds (build .virtual (List.eraseDups [⟨10⟩, ⟨10⟩]) none desk) = true := by
    decide +kernel
  obtain ⟨repeated, desk₁, hrepeated⟩ := exists_ok_of_succeeds hrepeated
  obtain ⟨once, desk₂, honce⟩ := exists_ok_of_succeeds honce
  refine ⟨repeated, once, desk₁, desk₂, hrepeated, honce, ?_⟩
  rw [eq_assembled_of_build hrepeated,
    eq_assembled_of_build honce]
  decide +kernel

end LibraryModel

end Referent
