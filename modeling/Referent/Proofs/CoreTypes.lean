import Referent.Proofs.Supertypes

/-!
# Extending the types of a core

A library that starts from a core copies what the core holds, and libraries loaded on top of it may
extend the types of the core. Their rows name types by id, and what an id leads to is decided by the
index by id. An index that the core has kept leads to every type of the core, and then each such row
links its type to the core's. An index that was released leads to none of them: the types are still
there, under their names, and each row that extends one misses its parent, unless the libraries
declare the type again (`LibraryModel.core_type_linked`).
-/

namespace Referent

/-! ## Edges -/

/-- What a row that becomes a link says. -/
theorem Table.ends_of_edge {table : Table} {toRef : Nat → EntityRef}
    {elsewhere : EntityId → Option EntityRef} {bases : Std.TreeMap EntityId EntityId}
    {row : RelationRow} {child : Nat} {parent : EntityRef} :
    table.edge toRef elsewhere bases row = .ok (child, parent) ↔
      table.typeSlot? row.left = some child ∧
        ((table.typeSlot? (bases.getD row.right row.right)).map toRef).or
          (elsewhere (bases.getD row.right row.right)) = some parent := by
  unfold edge
  simp only [Option.orElse_eq_orElse, Option.orElse_eq_or]
  cases table.typeSlot? row.left with
  | none => simp
  | some slot =>
    cases ((table.typeSlot? (bases.getD row.right row.right)).map toRef).or
        (elsewhere (bases.getD row.right row.right)) with
    | none => simp
    | some ref => simp

/-- The parents that the rows of a project give to a slot. -/
theorem Table.mem_parentsIn_edges {table : Table} {store : Store} (hstore : store.Sound)
    {toRef : Nat → EntityRef} {elsewhere : EntityId → Option EntityRef} {project : ProjectId}
    {slot : Nat} {parent : EntityRef} :
    parent ∈ parentsIn slot (table.edges toRef elsewhere store project) ↔
      ∃ row ∈ store.filed project RelationKind.inheritance,
        table.typeSlot? row.left = some slot ∧
          ((table.typeSlot? (store.baseOf project row.right)).map toRef).or
            (elsewhere (store.baseOf project row.right)) = some parent := by
  have hrow (row : RelationRow) :
      table.edge toRef elsewhere (baseTypes (store.relationsOf project [.hasBaseType])) row =
        .ok (slot, parent) ↔ table.typeSlot? row.left = some slot ∧
          ((table.typeSlot? (store.baseOf project row.right)).map toRef).or
            (elsewhere (store.baseOf project row.right)) = some parent := by
    rw [ends_of_edge, hstore.getD_baseTypes]
  constructor
  · intro hmem
    obtain ⟨row, hfiled, hedge⟩ := List.mem_map.1 (edge_of_mem_parentsIn hmem)
    rw [hstore.relationsOf_eq_filed] at hfiled
    exact ⟨row, hfiled, (hrow row).1 hedge⟩
  · rintro ⟨row, hfiled, hends⟩
    refine List.mem_filterMap.2 ⟨.ok (slot, parent), ?_, if_pos rfl⟩
    rw [edges, List.mem_map]
    refine ⟨row, ?_, (hrow row).2 hends⟩
    rwa [hstore.relationsOf_eq_filed]

/-! ## Anomalies -/

/-- Clashes are about names. -/
theorem duplicateName_of_mem_clashes {taken : String → Bool} {names : List String}
    {anomaly : Anomaly} (h : anomaly ∈ clashes taken names) :
    ∃ name, anomaly = .duplicateName name := by
  induction names generalizing taken with
  | nil => cases h
  | cons name names ih =>
    rcases List.mem_append.1 h with h | h
    · split at h
      · exact ⟨name, List.mem_singleton.1 h⟩
      · cases h
    · exact ih h

/-- A project misses a parent if one of its rows is about a known type and names an unknown one. -/
theorem missingParent_mem_missingEnds {store : Store} (hstore : store.Sound)
    {known : EntityId → Bool} {project : ProjectId} {id : EntityId} :
    .missingParent id ∈ store.missingEnds known (fun _ => false) project ↔ known id = false ∧
      ∃ row ∈ store.filed project RelationKind.inheritance, known row.left = true ∧
        store.baseOf project row.right = id := by
  rw [Store.missingEnds, hstore.relationsOf_eq_filed project RelationKind.inheritance,
    List.mem_filterMap]
  have hrow (row : RelationRow) : RelationRow.missingEnd? known (fun _ => false)
      (baseTypes (store.relationsOf project [.hasBaseType])) row = some (.missingParent id) ↔
        known id = false ∧ known row.left = true ∧ store.baseOf project row.right = id := by
    simp only [RelationRow.missingEnd?, hstore.getD_baseTypes, Bool.or_false]
    cases hleft : known row.left with
    | false => simp
    | true =>
      cases hright : known (store.baseOf project row.right) with
      | true =>
        simp only [if_true, reduceCtorEq, true_and, false_iff, not_and]
        rintro hunknown rfl
        rw [hright] at hunknown
        cases hunknown
      | false =>
        simp only [if_true, Bool.false_eq_true, if_false, Option.some.injEq,
          Anomaly.missingParent.injEq, true_and]
        constructor
        · rintro rfl
          exact ⟨hright, rfl⟩
        · exact And.right
  simp only [hrow]
  constructor
  · rintro ⟨row, hfiled, hunknown, hends⟩
    exact ⟨hunknown, row, hfiled, hends⟩
  · rintro ⟨hunknown, row, hfiled, hends⟩
    exact ⟨row, hfiled, hunknown, hends⟩

/-! ## Libraries on top of a core -/

/-- Some projects declare a type with an id. -/
def Store.DeclaresType (store : Store) (projects : List ProjectId) (id : EntityId) : Prop :=
  ∃ row ∈ store.stream projects, row.kind.isClassLike = true ∧ row.id = id

namespace LibraryModel

/-- The type that an id leads to has a type with another id as a direct supertype. -/
def Links (model : LibraryModel) (child parent : EntityId) : Prop :=
  ∃ ref entity, model.findById? child = some ref ∧ model.entity? ref = some entity ∧
    ∃ up ∈ entity.parents, ∃ target, model.entity? up = some target ∧ target.IsTypeOf parent

/-- A model comes from loading some libraries in virtual mode on top of one that tracks ids. -/
structure Extends (store : Store) (libraries : List ProjectId) (start model : LibraryModel) :
    Prop where
  tracks : start.tracksIds = true
  reached : model.Reached
  draft : model.draft = start.draft.fill .virtual store libraries

section Extends

variable {store : Store} {libraries : List ProjectId} {start model : LibraryModel}

theorem Extends.isSome_findById?_eq (h : Extends store libraries start model) (id : EntityId) :
    (model.findById? id).isSome =
      start.draft.table.knows (store.declarationsOf libraries) id := by
  rw [← Draft.isSome_typeSlot?_addRows .library start.draft _ h.tracks, findById?,
    Option.isSome_map, h.draft, Draft.fill, Table.typeSlot?, Draft.typeSlots_inherit_foldl,
    Draft.declare_foldl]
  rfl

/-- After a load an id leads somewhere if it did before or a library declares a type with it. -/
theorem Extends.isSome_findById? (h : Extends store libraries start model)
    (hstore : store.Sound) (id : EntityId) : (model.findById? id).isSome = true ↔
      (start.findById? id).isSome = true ∨ store.DeclaresType libraries id := by
  rw [h.isSome_findById?_eq, Table.knows, Bool.or_eq_true, findById?, Option.isSome_map, or_comm,
    hstore.declarationsOf_eq, List.any_eq_true, Store.DeclaresType]
  simp

/-- A load misses a parent if a row about a type names an id that leads nowhere. -/
theorem Extends.missingParent_mem_flaws (h : Extends store libraries start model)
    (hstore : store.Sound) {id : EntityId} :
    .missingParent id ∈ flaws .virtual store libraries start.draft.table (fun _ => false) ↔
      model.findById? id = none ∧ ∃ library ∈ libraries,
        ∃ row ∈ store.filed library RelationKind.inheritance,
          (model.findById? row.left).isSome = true ∧ store.baseOf library row.right = id := by
  have hclash : .missingParent id ∉ clashes start.draft.table.binds
      ((store.declarationsOf libraries).flatMap EntityRow.claims) := by
    intro hmem
    obtain ⟨name, heq⟩ := duplicateName_of_mem_clashes hmem
    cases heq
  simp only [flaws, List.mem_append, hclash, false_or, List.mem_flatMap,
    missingParent_mem_missingEnds hstore, ← h.isSome_findById?_eq, Option.isSome_eq_false_iff,
    Option.isNone_iff_eq_none]
  constructor
  · rintro ⟨library, hlibrary, hnone, hrow⟩
    exact ⟨hnone, library, hlibrary, hrow⟩
  · rintro ⟨hnone, library, hlibrary, hrow⟩
    exact ⟨library, hlibrary, hnone, hrow⟩

/-- The type that the id of a declaration leads to has the supertypes that the load gave it. -/
theorem Extends.entity_of_declared (h : Extends store libraries start model)
    (hstore : store.Sound) {id : EntityId} (hdeclared : store.DeclaresType libraries id) :
    ∃ slot entity, model.findById? id = some (.library slot) ∧
      model.entity? (.library slot) = some entity ∧
      ∀ up, up ∈ entity.parents ↔ ∃ library ∈ libraries,
        ∃ row ∈ store.filed library RelationKind.inheritance,
          model.findById? row.left = some (.library slot) ∧
            model.findById? (store.baseOf library row.right) = some up := by
  have htypeSlot : model.draft.table.typeSlot? =
      (libraries.foldl (Draft.declare .library store) start.draft).table.typeSlot? := by
    funext other
    rw [h.draft, Draft.fill, Table.typeSlot?, Table.typeSlot?, Draft.typeSlots_inherit_foldl]
  -- The id leads to an entity that the load has put behind those it found.
  rw [Store.DeclaresType, ← hstore.declarationsOf_eq] at hdeclared
  obtain ⟨slot, hslot⟩ : ∃ slot, classSlot? id start.draft.table.size
      (store.declarationsOf libraries) = some slot :=
    Option.isSome_iff_exists.1 (classSlot?_isSome.2 hdeclared)
  obtain ⟨hge, hlt⟩ := classSlot?_bounds hslot
  have hleads : model.draft.table.typeSlot? id = some slot := by
    rw [htypeSlot, Draft.declare_foldl, Draft.typeSlot?_addRows .library start.draft _ h.tracks,
      hslot, Option.some_or]
  obtain ⟨row, hrow⟩ : ∃ row,
      (store.declarationsOf libraries)[slot - start.draft.table.size]? = some row :=
    ⟨_, List.getElem?_eq_getElem (by omega)⟩
  have hentity : (libraries.foldl (Draft.declare .library store) start.draft).table.arena[slot]? =
      some (row.entity .library) := by
    rw [Draft.declare_foldl, Draft.getElem?_addRows, if_neg (by omega), hrow, Option.map_some]
  refine ⟨slot, (row.entity .library).addParents (libraries.flatMap fun library =>
    parentsIn slot ((libraries.foldl (Draft.declare .library store) start.draft).table.edges
      .library (fun _ => none) store library)), ?_, ?_, ?_⟩
  · rw [findById?, hleads, Option.map_some]
  · rw [entity?, h.draft, Draft.fill, Draft.getElem?_inherit_foldl, hentity, Option.map_some]
  · intro up
    simp only [Entity.mem_addParents, EntityRow.entity, List.not_mem_nil, false_or,
      List.mem_flatMap, Table.mem_parentsIn_edges hstore, Option.or_none, findById?, htypeSlot,
      Option.map_eq_some_iff, EntityRef.library.injEq, exists_eq_right]

/-- A row about a declared type links it to the type that it names if the id of that type leads
somewhere after the load. -/
theorem Extends.links_iff (h : Extends store libraries start model) (hstore : store.Sound)
    {library : ProjectId} (hlibrary : library ∈ libraries) {row : RelationRow}
    (hrow : row ∈ store.filed library RelationKind.inheritance)
    (hchild : store.DeclaresType libraries row.left) :
    model.Links row.left (store.baseOf library row.right) ↔
      (model.findById? (store.baseOf library row.right)).isSome = true := by
  obtain ⟨slot, entity, hfind, hentity, hparents⟩ := h.entity_of_declared hstore hchild
  constructor
  · rintro ⟨ref, other, hfind', hother, up, hup, target, htarget, htype⟩
    rw [hfind, Option.some.injEq] at hfind'
    subst hfind'
    rw [hentity, Option.some.injEq] at hother
    subst hother
    -- The link is due to some row, which names the same type.
    obtain ⟨_, -, cause, -, -, hleads⟩ := (hparents up).1 hup
    obtain ⟨named, hnamed, hsame⟩ := h.reached.type_of_findById? hleads
    rw [htarget, Option.some.injEq] at hnamed
    subst hnamed
    rw [← htype.2, hsame.2, hleads]
    rfl
  · intro hsome
    obtain ⟨up, hup⟩ := Option.isSome_iff_exists.1 hsome
    obtain ⟨target, htarget, htype⟩ := h.reached.type_of_findById? hup
    exact ⟨.library slot, entity, hfind, hentity, up,
      (hparents up).2 ⟨library, hlibrary, row, hrow, hfind, hup⟩, target, htarget, htype⟩

end Extends

/-- To start from a core is to start with its index. -/
theorem findById?_withCore (model core : LibraryModel) (id : EntityId) :
    (model.withCore core).findById? id = core.findById? id := by
  have htrackIds (table : Table) : table.trackIds.typeSlot? id = table.typeSlot? id := by
    simp only [Table.typeSlot?, Table.trackIds, Option.bind_some]
    cases table.typeSlots <;> simp
  show ((prepare model.mode core.draft.table).typeSlot? id).map _ = _
  cases model.mode with
  | plain => rfl
  | «virtual» =>
    rw [prepare, htrackIds]
    rfl

/-- A virtual library that starts from a core and then loads libraries has a row of one of them
extend a type, be it of the core, if the index of the core leads to the type or the libraries
declare it. The type of the row then has the other as a supertype, and no parent with this id is
missing. Otherwise there is no such link, and a parent with this id is missing. A core that kept its
index leads to each of its types. -/
theorem core_type_linked {core builder model : LibraryModel} {store : Store}
    {libraries : List ProjectId} {library : ProjectId} {row : RelationRow} {desk desk' : Desk}
    (hstore : store.Reached) (hcore : core.Reached) (hbuilder : builder.Reached)
    (hmode : builder.mode = .virtual) (hdesk : desk.corpus.store = store)
    (hload : (builder.withCore core).loaded libraries desk = .ok model desk')
    (hlibrary : library ∈ libraries) (hrow : row ∈ store.filed library RelationKind.inheritance)
    (hchild : store.DeclaresType [library] row.left) :
    let right := store.baseOf library row.right
    let known := (core.findById? right).isSome = true ∨ store.DeclaresType libraries right
    ∃ recorded, model.anomalies = builder.anomalies ++ recorded ∧
      (known → model.Links row.left right ∧ .missingParent right ∉ recorded) ∧
      (¬ known → ¬ model.Links row.left right ∧ .missingParent right ∈ recorded) ∧
      (core.KeepsIndex → ∀ slot entity, core.entity? (.library slot) = some entity →
        entity.IsTypeOf right → known) := by
  intro right known
  have hsound := hstore.sound
  have hextends : Extends store libraries (builder.withCore core) model := by
    obtain ⟨hmodel, -⟩ := loaded_eq_ok hload
    refine ⟨?_, reached_of_loaded (hbuilder.withCore hcore) hload, ?_⟩
    · show (prepare builder.mode core.draft.table).typeSlots.isSome = true
      rw [hmode]
      rfl
    · rw [hmodel, hdesk]
      show Draft.fill builder.mode store libraries _ = _
      rw [hmode]
  have hknown : known ↔ (model.findById? right).isSome = true := by
    rw [hextends.isSome_findById? hsound, findById?_withCore]
  have hchild' : store.DeclaresType libraries row.left := by
    obtain ⟨child, hmem, hclass, hid⟩ := hchild
    rw [Store.stream, List.flatMap_singleton] at hmem
    exact ⟨child, List.mem_flatMap.2 ⟨library, hlibrary, hmem⟩, hclass, hid⟩
  have hlinks := hextends.links_iff hsound hlibrary hrow hchild'
  refine ⟨flaws .virtual store libraries (builder.withCore core).draft.table fun _ => false,
    ?_, ?_, ?_, ?_⟩
  · rw [anomalies, hextends.draft]
    exact Draft.toList_fill (fun _ => hextends.tracks) store libraries
  · intro h
    refine ⟨hlinks.2 (hknown.1 h), ?_⟩
    rw [hextends.missingParent_mem_flaws hsound]
    rintro ⟨hnone, -⟩
    rw [hknown, hnone] at h
    cases h
  · intro h
    refine ⟨fun hlinked => h (hknown.2 (hlinks.1 hlinked)), ?_⟩
    rw [hextends.missingParent_mem_flaws hsound]
    refine ⟨?_, library, hlibrary, row, hrow, ?_, rfl⟩
    · rwa [hknown, Bool.not_eq_true, Option.isSome_eq_false_iff, Option.isNone_iff_eq_none] at h
    · exact (hextends.isSome_findById? hsound _).2 (.inr hchild')
  · intro hkeeps slot entity hentity htype
    refine .inl ?_
    rw [findById?, Option.isSome_map]
    exact hkeeps.covers.isSome_of_type hentity htype

/-- A row of a library that has a type extend a type of the core. -/
def extension : RelationRow :=
  { kind := .extends, left := ⟨2⟩, right := ⟨1⟩, project := ⟨2⟩ }

/-- A core type, and a library type that extends it. -/
def extendingStore : Store :=
  (Store.ofRows
    [{ project := ⟨1⟩, name := "java.lang.Object", kind := .class, id := ⟨1⟩ },
     { project := ⟨2⟩, name := "lib.A", kind := .class, id := ⟨2⟩ }]).relate extension

/-- On top of a core that kept its index the library type is linked to the core type. -/
theorem core_type_linked_with_index :
    let desk : Desk := { corpus := { store := extendingStore } }
    extendingStore.Reached ∧ ∃ core model desk₁ desk₂,
      (empty .virtual).loaded [⟨1⟩] desk = .ok core desk₁ ∧ core.KeepsIndex ∧
      ((empty .virtual).withCore core).loaded [⟨2⟩] desk = .ok model desk₂ ∧
      extension ∈ extendingStore.filed ⟨2⟩ RelationKind.inheritance ∧
      extendingStore.DeclaresType [⟨2⟩] ⟨2⟩ ∧
      model.Links ⟨2⟩ ⟨1⟩ ∧ .missingParent ⟨1⟩ ∉ model.anomalies := by
  intro desk
  have hreached : extendingStore.Reached := .relate _ (Store.reached_ofRows _)
  have hcore : succeeds ((empty .virtual).loaded [⟨1⟩] desk) = true := by decide +kernel
  obtain ⟨core, desk₁, hcore⟩ := exists_ok_of_succeeds hcore
  have hkeeps := keepsIndex_of_loaded .empty hcore
  have hcoreReached := reached_of_loaded (.empty .virtual) hcore
  have hmodel : succeeds (((empty .virtual).withCore core).loaded [⟨2⟩] desk) = true := by
    obtain ⟨rfl, -⟩ := loaded_eq_ok hcore
    decide +kernel
  obtain ⟨model, desk₂, hmodel⟩ := exists_ok_of_succeeds hmodel
  have hrow : extension ∈ extendingStore.filed ⟨2⟩ RelationKind.inheritance := by decide +kernel
  have hchild : extendingStore.DeclaresType [⟨2⟩] extension.left := by
    unfold Store.DeclaresType
    decide +kernel
  have hright : extendingStore.baseOf ⟨2⟩ extension.right = ⟨1⟩ := by decide +kernel
  obtain ⟨recorded, hanomalies, hknown, -, hleads⟩ := core_type_linked hreached hcoreReached
    (.empty .virtual) rfl rfl hmodel List.mem_cons_self hrow hchild
  rw [hright] at hknown hleads
  have htype : ∃ entity, core.entity? (.library 0) = some entity ∧ entity.IsTypeOf ⟨1⟩ := by
    obtain ⟨rfl, -⟩ := loaded_eq_ok hcore
    exact ⟨{ name := "java.lang.Object", kind := .class, id := ⟨1⟩, origin := .library },
      by decide +kernel, by decide⟩
  obtain ⟨entity, hentity, htype⟩ := htype
  obtain ⟨hlinks, hmissing⟩ := hknown (hleads hkeeps 0 entity hentity htype)
  refine ⟨hreached, core, model, desk₁, desk₂, hcore, hkeeps, hmodel, hrow, hchild, hlinks, ?_⟩
  rw [hanomalies]
  exact hmissing

/-- On top of the same core with its index released, the library type is not linked to the core
type, which is still there, and a parent with the id of the core type is missing. -/
theorem released_core_not_extended :
    let desk : Desk := { corpus := { store := extendingStore } }
    extendingStore.Reached ∧ ∃ core model desk₁ desk₂,
      (empty .virtual).loaded [⟨1⟩] desk = .ok core desk₁ ∧
      ((empty .virtual).withCore core.releaseIds).loaded [⟨2⟩] desk = .ok model desk₂ ∧
      (∃ entity, core.releaseIds.entity? (.library 0) = some entity ∧
        entity.IsTypeOf (extendingStore.baseOf ⟨2⟩ extension.right)) ∧
      extension ∈ extendingStore.filed ⟨2⟩ RelationKind.inheritance ∧
      extendingStore.DeclaresType [⟨2⟩] extension.left ∧
      ¬ model.Links extension.left (extendingStore.baseOf ⟨2⟩ extension.right) ∧
      .missingParent (extendingStore.baseOf ⟨2⟩ extension.right) ∈ model.anomalies := by
  intro desk
  have hcore : succeeds ((empty .virtual).loaded [⟨1⟩] desk) = true := by decide +kernel
  obtain ⟨core, desk₁, hcore⟩ := exists_ok_of_succeeds hcore
  have hmodel : succeeds (((empty .virtual).withCore core.releaseIds).loaded [⟨2⟩] desk) =
      true := by
    obtain ⟨rfl, -⟩ := loaded_eq_ok hcore
    decide +kernel
  obtain ⟨model, desk₂, hmodel⟩ := exists_ok_of_succeeds hmodel
  refine ⟨.relate _ (Store.reached_ofRows _), core, model, desk₁, desk₂, hcore, hmodel, ?_⟩
  have hslot : model.findById? extension.left = some (.library 1) := by
    obtain ⟨rfl, -⟩ := loaded_eq_ok hcore
    obtain ⟨rfl, -⟩ := loaded_eq_ok hmodel
    decide +kernel
  have hparents : (model.entity? (.library 1)).map (·.parents) = some [] := by
    obtain ⟨rfl, -⟩ := loaded_eq_ok hcore
    obtain ⟨rfl, -⟩ := loaded_eq_ok hmodel
    decide +kernel
  have hunlinked : ¬ model.Links extension.left (extendingStore.baseOf ⟨2⟩ extension.right) := by
    rintro ⟨ref, entity, hfind, hentity, up, hup, -⟩
    rw [hslot, Option.some.injEq] at hfind
    subst hfind
    rw [hentity, Option.map_some, Option.some.injEq] at hparents
    rw [hparents] at hup
    cases hup
  obtain ⟨rfl, -⟩ := loaded_eq_ok hcore
  obtain ⟨rfl, -⟩ := loaded_eq_ok hmodel
  refine ⟨⟨{ name := "java.lang.Object", kind := .class, id := ⟨1⟩, origin := .library },
    by decide +kernel, by decide +kernel⟩, by decide +kernel, ?_, hunlinked, by decide +kernel⟩
  unfold Store.DeclaresType
  decide +kernel

end LibraryModel

end Referent
