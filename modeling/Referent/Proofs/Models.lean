import Referent.Proofs.Reads

/-!
# Models that can come about

A library model comes about by loading, seeding and releasing, in any order and with loads that
may fail half-way; a project model by a build on top of such a library. In each of them nothing
dangles: names and ids lead to slots that are taken, parents to entities that can be seen, and
before any lookup every entity is of a declared kind (`Table.Sound`).
-/

namespace Referent

namespace Table

/-- Nothing in a table dangles. Its own slots are referred to by `toRef`; what `outside` holds
of can be seen elsewhere. -/
structure Sound (table : Table) (toRef : Nat → EntityRef) (outside : EntityRef → Prop) :
    Prop where
  slot_lt : ∀ name slot, table.slot? name = some slot → slot < table.size
  typeSlot_lt : ∀ id slot, table.typeSlot? id = some slot → slot < table.size
  kind : ∀ entity ∈ table.arena.toList, entity.kind ∈ EntityKind.declared
  parent : ∀ entity ∈ table.arena.toList, ∀ ref ∈ entity.parents,
    (∃ slot, ref = toRef slot ∧ slot < table.size) ∨ outside ref

variable {toRef : Nat → EntityRef} {outside : EntityRef → Prop}

theorem Sound.empty : Sound {} toRef outside where
  slot_lt name slot h := by simp [slot?] at h
  typeSlot_lt id slot h := by simp [typeSlot?] at h
  kind entity h := by simp at h
  parent entity h := by simp at h

theorem Sound.trackIds {table : Table} (h : table.Sound toRef outside) :
    table.trackIds.Sound toRef outside where
  slot_lt := h.slot_lt
  typeSlot_lt id slot hslot := by
    apply h.typeSlot_lt id slot
    simp only [typeSlot?, Table.trackIds, Option.bind_some] at hslot ⊢
    cases htracked : table.typeSlots with
    | none => simp [htracked] at hslot
    | some typeSlots => simpa [htracked] using hslot
  kind := h.kind
  parent := h.parent

theorem Sound.releaseIds {table : Table} (h : table.Sound toRef outside) :
    table.releaseIds.Sound toRef outside where
  slot_lt := h.slot_lt
  typeSlot_lt id slot hslot := by simp [typeSlot?, Table.releaseIds] at hslot
  kind := h.kind
  parent := h.parent

theorem Sound.addRows {draft : Draft} (h : draft.table.Sound toRef outside) (origin : Origin)
    {rows : List EntityRow} (hkinds : ∀ row ∈ rows, row.kind ∈ EntityKind.declared) :
    (rows.foldl (Draft.addRow origin) draft).table.Sound toRef outside where
  slot_lt name slot hslot := by
    rw [Draft.slot?_addRows] at hslot
    rw [Draft.size_addRows]
    rcases Option.or_eq_some_iff.1 hslot with hslot | ⟨-, hslot⟩
    · have := h.slot_lt name slot hslot
      omega
    · exact (claimSlot?_bounds hslot).2
  typeSlot_lt id slot hslot := by
    rw [Draft.size_addRows]
    by_cases htracks : draft.table.typeSlots.isSome
    · rw [Draft.typeSlot?_addRows origin draft rows htracks] at hslot
      rcases Option.or_eq_some_iff.1 hslot with hslot | ⟨-, hslot⟩
      · exact (classSlot?_bounds hslot).2
      · have := h.typeSlot_lt id slot hslot
        omega
    · have huntracked := Draft.tracks_addRows origin draft rows
      rw [Bool.not_eq_true] at htracks
      rw [htracks, Option.isSome_eq_false_iff] at huntracked
      simp [typeSlot?, Option.isNone_iff_eq_none.1 huntracked] at hslot
  kind entity hentity := by
    rw [Draft.arena_addRows, List.mem_append] at hentity
    rcases hentity with hentity | hentity
    · exact h.kind entity hentity
    · obtain ⟨row, hrow, rfl⟩ := List.mem_map.1 hentity
      exact hkinds row hrow
  parent entity hentity ref href := by
    rw [Draft.arena_addRows, List.mem_append] at hentity
    rw [Draft.size_addRows]
    rcases hentity with hentity | hentity
    · rcases h.parent entity hentity ref href with ⟨slot, heq, hlt⟩ | hout
      · exact .inl ⟨slot, heq, by omega⟩
      · exact .inr hout
    · obtain ⟨row, -, rfl⟩ := List.mem_map.1 hentity
      simp [EntityRow.entity] at href

theorem Sound.addParent {table : Table} (h : table.Sound toRef outside) (child : Nat)
    {parent : EntityRef}
    (hparent : (∃ slot, parent = toRef slot ∧ slot < table.size) ∨ outside parent) :
    (table.addParent child parent).Sound toRef outside := by
  have hmem : ∀ entity ∈ (table.addParent child parent).arena.toList,
      entity ∈ table.arena.toList ∨ ∃ old ∈ table.arena.toList, entity = old.addParent parent := by
    intro entity hentity
    obtain ⟨slot, hslot, rfl⟩ := List.getElem_of_mem hentity
    simp only [Table.addParent, Array.getElem_toList, Array.getElem_modify]
    split
    · exact .inr ⟨_, Array.getElem_mem_toList _, rfl⟩
    · exact .inl (Array.getElem_mem_toList _)
  constructor
  · intro name slot hslot
    rw [size_addParent]
    exact h.slot_lt name slot hslot
  · intro id slot hslot
    rw [size_addParent]
    exact h.typeSlot_lt id slot hslot
  · intro entity hentity
    rcases hmem entity hentity with hold | ⟨old, hold, rfl⟩
    · exact h.kind entity hold
    · unfold Entity.addParent
      split <;> exact h.kind old hold
  · intro entity hentity ref href
    rw [size_addParent]
    rcases hmem entity hentity with hold | ⟨old, hold, rfl⟩
    · exact h.parent entity hold ref href
    · unfold Entity.addParent at href
      split at href
      · exact h.parent old hold ref href
      · rcases List.mem_append.1 href with href | href
        · exact h.parent old hold ref href
        · rw [List.mem_singleton.1 href]
          exact hparent

theorem Sound.wire {draft : Draft} (h : draft.table.Sound toRef outside)
    {edges : List (Except Anomaly (Nat × EntityRef))}
    (hedges : ∀ child parent, .ok (child, parent) ∈ edges →
      (∃ slot, parent = toRef slot ∧ slot < draft.table.size) ∨ outside parent) :
    (draft.wire edges).table.Sound toRef outside := by
  induction edges generalizing draft with
  | nil => exact h
  | cons edge edges ih =>
    rw [Draft.wire, List.foldl_cons]
    cases edge with
    | error anomaly =>
      refine ih h ?_
      intro child parent hmem
      exact hedges child parent (List.mem_cons_of_mem _ hmem)
    | ok link =>
      obtain ⟨child, parent⟩ := link
      refine ih (h.addParent child (hedges child parent List.mem_cons_self)) ?_
      intro child' parent' hmem
      have := hedges child' parent' (List.mem_cons_of_mem _ hmem)
      simpa [Draft.applyEdge] using this

/-- Loading makes declarations only. -/
theorem Sound.declaredSlot?_eq {table : Table} (h : table.Sound toRef outside) (name : String) :
    table.declaredSlot? name = table.slot? name := by
  rw [declaredSlot?]
  cases hslot : table.slot? name with
  | none => rfl
  | some slot =>
    have hlt := h.slot_lt name slot hslot
    have hdeclared := h.kind _ (Array.getElem_mem_toList hlt)
    have hkind : table.arena[slot].kind.isSynthesized = false := by
      revert hdeclared
      cases table.arena[slot].kind <;> decide
    rw [Option.filter_some, Array.getElem?_eq_getElem hlt]
    simp [hkind]

theorem parent_of_edge {table : Table} (h : table.Sound toRef outside)
    {elsewhere : EntityId → Option EntityRef}
    (helsewhere : ∀ id ref, elsewhere id = some ref → outside ref)
    {bases : Std.TreeMap EntityId EntityId} {row : RelationRow} {child : Nat}
    {parent : EntityRef} (hedge : table.edge toRef elsewhere bases row = .ok (child, parent)) :
    (∃ slot, parent = toRef slot ∧ slot < table.size) ∨ outside parent := by
  unfold edge at hedge
  simp only at hedge
  split at hedge
  · cases hedge
  · split at hedge
    · cases hedge
    · rename_i found hfound
      cases hedge
      rw [Option.orElse_eq_orElse, Option.orElse_eq_or, Option.or_eq_some_iff] at hfound
      rcases hfound with hfound | ⟨-, hfound⟩
      · obtain ⟨slot, hslot, rfl⟩ := Option.map_eq_some_iff.1 hfound
        exact .inl ⟨slot, rfl, h.typeSlot_lt _ slot hslot⟩
      · exact .inr (helsewhere _ _ hfound)

end Table

theorem Draft.declare_sound {draft : Draft} {toRef : Nat → EntityRef}
    {outside : EntityRef → Prop} (h : draft.table.Sound toRef outside) (origin : Origin)
    (store : Store) (project : ProjectId) :
    (draft.declare origin store project).table.Sound toRef outside := by
  apply h.addRows origin
  intro row hrow
  have := (List.mem_filter.1 hrow).2
  simpa using this

theorem Draft.inherit_sound {draft : Draft} {toRef : Nat → EntityRef}
    {outside : EntityRef → Prop} (h : draft.table.Sound toRef outside)
    {elsewhere : EntityId → Option EntityRef}
    (helsewhere : ∀ id ref, elsewhere id = some ref → outside ref) (store : Store)
    (project : ProjectId) :
    (draft.inherit toRef elsewhere store project).table.Sound toRef outside := by
  apply h.wire
  intro child parent hmem
  obtain ⟨row, -, hedge⟩ := List.mem_map.1 hmem
  exact Table.parent_of_edge h helsewhere hedge

/-! ## Library models -/

namespace LibraryModel

/-- Parents of library entities are library entities. -/
def Sound (model : LibraryModel) : Prop :=
  model.draft.table.Sound .library fun _ => False

/-- A library model that building can lead to. -/
inductive Reached : LibraryModel → Prop
  | empty (mode : Mode) : Reached (empty mode)
  | withCore {model core : LibraryModel} :
      Reached model → Reached core → Reached (model.withCore core)
  | withRootType {model : LibraryModel} (rootType : String) :
      Reached model → Reached (model.withRootType rootType)
  | loaded {model model' : LibraryModel} {libraries : List ProjectId} {desk desk' : Desk} :
      Reached model → load libraries (model, desk) = .ok () (model', desk') → Reached model'
  | failed {model model' : LibraryModel} {libraries : List ProjectId} {desk desk' : Desk}
      {err : ModelError} :
      Reached model → load libraries (model, desk) = .error err (model', desk') → Reached model'
  | releaseIds {model : LibraryModel} : Reached model → Reached model.releaseIds

theorem prepare_sound {table : Table} (h : table.Sound .library fun _ => False) (mode : Mode) :
    (prepare mode table).Sound .library fun _ => False := by
  cases mode with
  | plain => exact h
  | virtual => exact h.trackIds

theorem foldl_sound {change : Draft → ProjectId → Draft}
    (hchange : ∀ draft project, draft.table.Sound .library (fun _ => False) →
      (change draft project).table.Sound .library fun _ => False)
    (projects : List ProjectId) {draft : Draft}
    (h : draft.table.Sound .library fun _ => False) :
    (projects.foldl change draft).table.Sound .library fun _ => False := by
  induction projects generalizing draft with
  | nil => exact h
  | cons project projects ih => exact ih (hchange draft project h)

theorem declare_foldl_sound (store : Store) (projects : List ProjectId) {draft : Draft}
    (h : draft.table.Sound .library fun _ => False) :
    (projects.foldl (Draft.declare .library store) draft).table.Sound .library
      fun _ => False :=
  foldl_sound (fun _ project hdraft => Draft.declare_sound hdraft .library store project)
    projects h

theorem inherit_foldl_sound (store : Store) (projects : List ProjectId) {draft : Draft}
    (h : draft.table.Sound .library fun _ => False) :
    (projects.foldl (Draft.inherit .library (fun _ => none) store) draft).table.Sound .library
      fun _ => False :=
  foldl_sound (fun _ project hdraft => Draft.inherit_sound hdraft (by simp) store project)
    projects h

theorem Reached.sound {model : LibraryModel} (h : model.Reached) : model.Sound := by
  induction h with
  | empty mode => exact prepare_sound .empty mode
  | withCore _ _ _ ih => exact prepare_sound ih _
  | withRootType _ _ ih => exact ih
  | @loaded model model' libraries desk desk' _ hload ih =>
    obtain ⟨rfl, -⟩ := load_eq_ok hload
    have hdeclared := declare_foldl_sound desk.corpus.store libraries ih
    unfold Sound Draft.fill
    cases model.mode with
    | plain => exact hdeclared
    | virtual => exact inherit_foldl_sound desk.corpus.store libraries hdeclared
  | @failed model model' libraries desk desk' err _ hload ih =>
    obtain ⟨draft, hpartial, rfl⟩ := load_eq_error hload
    have hdeclared := declare_foldl_sound desk.corpus.store libraries ih
    cases hpartial with
    | declarations _ => exact declare_foldl_sound desk.corpus.store _ ih
    | inheritance _ _ => exact inherit_foldl_sound desk.corpus.store _ hdeclared
  | releaseIds _ ih => exact Table.Sound.releaseIds ih

theorem reached_of_loaded {model model' : LibraryModel} {libraries : List ProjectId}
    {desk desk' : Desk} (h : model.Reached)
    (hloaded : model.loaded libraries desk = .ok model' desk') : model'.Reached :=
  h.loaded (load_of_loaded hloaded)

/-- The rows of any store can be loaded. -/
theorem Reached.filled {model : LibraryModel} (h : model.Reached) (store : Store)
    (libraries : List ProjectId) :
    Reached { model with draft := model.draft.fill model.mode store libraries } := by
  obtain ⟨model', desk, hrun⟩ := exists_loaded model libraries { corpus := { store } } rfl
  obtain ⟨rfl, -⟩ := loaded_eq_ok hrun
  exact reached_of_loaded h hrun

theorem entity?_hierarchy (model : LibraryModel) (ref : EntityRef) :
    model.hierarchy.entity? ref = model.entity? ref := by
  cases ref with
  | library slot => rfl
  | project slot => simp [hierarchy, Hierarchy.entity?, entity?]

theorem Sound.isSome_of_find? {model : LibraryModel} (h : model.Sound) {name : String}
    {ref : EntityRef} (hfind : model.find? name = some ref) : (model.entity? ref).isSome := by
  obtain ⟨slot, hslot, rfl⟩ := Option.map_eq_some_iff.1 hfind
  have := h.slot_lt name slot hslot
  simpa [entity?, Table.size] using this

theorem Sound.isSome_of_findById? {model : LibraryModel} (h : model.Sound) {id : EntityId}
    {ref : EntityRef} (hfind : model.findById? id = some ref) :
    (model.entity? ref).isSome := by
  obtain ⟨slot, hslot, rfl⟩ := Option.map_eq_some_iff.1 hfind
  have := h.typeSlot_lt id slot hslot
  simpa [entity?, Table.size] using this

theorem slot_of_entity? {model : LibraryModel} {ref : EntityRef} {entity : Entity}
    (h : model.entity? ref = some entity) : ∃ slot, ref = .library slot ∧
      slot < model.draft.table.size ∧ model.draft.table.arena[slot]? = some entity := by
  cases ref with
  | library slot => exact ⟨slot, rfl, (Array.getElem?_eq_some_iff.1 h).1, h⟩
  | project slot => cases h

/-- Parents of what a library model shows are shown, and are of the library. -/
theorem Sound.parents_shown {model : LibraryModel} (h : model.Sound) {ref : EntityRef}
    {entity : Entity} (hentity : model.entity? ref = some entity) :
    ∀ parent ∈ entity.parents,
      (∃ slot, parent = .library slot) ∧ (model.entity? parent).isSome := by
  intro parent hparent
  obtain ⟨slot, rfl, -, hget⟩ := slot_of_entity? hentity
  have hmem := Array.mem_toList_iff.2 (Array.mem_of_getElem? hget)
  obtain ⟨other, rfl, hlt⟩ := (h.parent entity hmem parent hparent).resolve_right not_false
  have hother := Array.getElem?_eq_getElem hlt
  exact ⟨⟨other, rfl⟩, Option.isSome_iff_exists.2 ⟨_, hother⟩⟩

end LibraryModel

/-! ## Project models -/

namespace ProjectModel

/-- A project model as a build gives it, before any lookup. -/
def Built (model : ProjectModel) : Prop :=
  ∃ mode project library soleHolder desk desk', LibraryModel.Reached library ∧
    build mode project library soleHolder desk = .ok model desk'

/-- What a build gives: a table in which nothing dangles, over a library that can come about,
and no trace of lookups. -/
structure Fresh (model : ProjectModel) : Prop where
  library : model.library.Sound
  table : model.table.Sound .project fun ref => (model.library.entity? ref).isSome
  placeholders : model.placeholders = {}
  bindings : model.bindings = {}

theorem contents_sound {library : LibraryModel} (h : library.Sound) (mode : Mode)
    (store : Store) (project : ProjectId) :
    (contents mode store library project).table.Sound .project
      fun ref => (library.entity? ref).isSome := by
  cases mode with
  | plain => exact Draft.declare_sound .empty .internal store project
  | virtual =>
    apply Draft.inherit_sound
    · exact Draft.declare_sound Table.Sound.empty.trackIds .internal store project
    · intro id ref hfind
      exact h.isSome_of_findById? hfind

theorem Built.fresh {model : ProjectModel} (h : model.Built) : model.Fresh := by
  obtain ⟨mode, project, library, soleHolder, desk, desk', hreached, hbuild⟩ := h
  have hlibrary := hreached.sound
  have hcontents := contents_sound hlibrary mode desk.corpus.store project
  cases mode with
  | plain =>
    obtain ⟨rfl, -⟩ := buildPlain_eq_ok hbuild
    exact ⟨hlibrary, hcontents, rfl, rfl⟩
  | virtual =>
    obtain ⟨rfl, -⟩ := buildVirtual_eq_ok hbuild
    cases soleHolder with
    | false => exact ⟨hlibrary, hcontents.releaseIds, rfl, rfl⟩
    | true => exact ⟨Table.Sound.releaseIds hlibrary, hcontents.releaseIds, rfl, rfl⟩

/-- Nothing is remembered of a fresh model. -/
theorem Fresh.memoized?_eq_none {model : ProjectModel} (h : model.Fresh) (name : String) :
    model.memoized? name = none := by
  simp [memoized?, h.bindings]

/-- All that a fresh model binds is declared. -/
theorem Fresh.declared?_eq {model : ProjectModel} (h : model.Fresh) (name : String) :
    model.declared? name = model.findAny? name := by
  rw [declared?, h.table.declaredSlot?_eq]
  rfl

theorem entity?_hierarchy (model : ProjectModel) (ref : EntityRef) :
    model.hierarchy.entity? ref = model.entity? ref := by
  cases ref <;> rfl

/-- Everything that a fresh model shows is declared. -/
theorem Fresh.declared {model : ProjectModel} (h : model.Fresh) {ref : EntityRef}
    {entity : Entity} (hentity : model.entity? ref = some entity) :
    entity.kind ∈ EntityKind.declared := by
  cases ref with
  | library slot =>
    exact h.library.kind entity (Array.mem_toList_iff.2 (Array.mem_of_getElem? hentity))
  | project slot =>
    exact h.table.kind entity (Array.mem_toList_iff.2 (Array.mem_of_getElem? hentity))

/-- Parents of what a fresh model shows are shown. -/
theorem Fresh.closed {model : ProjectModel} (h : model.Fresh) {ref : EntityRef}
    {entity : Entity} (hentity : model.entity? ref = some entity) :
    ∀ parent ∈ entity.parents, (model.entity? parent).isSome := by
  intro parent hparent
  cases ref with
  | library slot =>
    have hlibrary : model.library.entity? (.library slot) = some entity := hentity
    obtain ⟨⟨other, rfl⟩, hshown⟩ := h.library.parents_shown hlibrary parent hparent
    exact hshown
  | project slot =>
    have hmem := Array.mem_toList_iff.2 (Array.mem_of_getElem? hentity)
    rcases h.table.parent entity hmem parent hparent with ⟨other, rfl, hlt⟩ | hout
    · have hget := Array.getElem?_eq_getElem hlt
      exact Option.isSome_iff_exists.2 ⟨_, hget⟩
    · cases parent with
      | library other => exact hout
      | project other => cases hout

/-- A build that no call of the store fails succeeds. -/
theorem build_succeeds (mode : Mode) (project : ProjectId) (library : LibraryModel)
    (soleHolder : Bool) (store : Store) :
    succeeds (build mode project library soleHolder { corpus := { store } }) = true := by
  cases mode <;> rfl

/-- The virtual model of a project over a library, read off a store. -/
def atop (store : Store) (library : LibraryModel) (project : ProjectId) : ProjectModel where
  project := project
  library := library
  table := (contents .virtual store library project).table.releaseIds
  diagnostics := (contents .virtual store library project).diagnostics

theorem atop_built (store : Store) {library : LibraryModel} (hlibrary : library.Reached)
    (project : ProjectId) : (atop store library project).Built := by
  obtain ⟨model, desk, hrun⟩ :=
    exists_ok_of_succeeds (build_succeeds .virtual project library false store)
  obtain ⟨rfl, -⟩ := buildVirtual_eq_ok hrun
  exact ⟨.virtual, project, _, false, _, desk, hlibrary, hrun⟩

/-- The virtual model of a project without libraries, read off a store. -/
def alone (store : Store) (project : ProjectId) : ProjectModel where
  project := project
  library := .empty .virtual
  table := (contents .virtual store (.empty .virtual) project).table.releaseIds
  diagnostics := (contents .virtual store (.empty .virtual) project).diagnostics

theorem alone_built (store : Store) (project : ProjectId) : (alone store project).Built :=
  atop_built store (.empty .virtual) project

end ProjectModel

end Referent
