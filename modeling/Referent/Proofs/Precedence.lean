import Referent.Proofs.Coverage

/-!
# The first declaration wins

Rows stream into a table one after the other, project after project. A row may claim two names and
lose either of them, each to another earlier row; its own bare name it claims only if it has no
signature. Whatever was claimed in which order, the table comes out the same way (`Table.Holds`):
one entity for each row, in order, and each name denotes the first row of the whole stream that
claims it. An index by id that covers the whole table leads to the last type with an id
(`Table.LeadsToLast`).

A row more keeps it so (`Holds.addRow`), and wiring changes nothing that it speaks of
(`Holds.wire`). So it is so of every load of libraries and of every build of a project
(`first_declaration_wins`).
-/

namespace Referent

/-- The row claims a name: its own name if it has no signature, and otherwise its name with the
signature behind it, and with the erased signature behind it if there is one. -/
inductive EntityRow.Claims (row : EntityRow) : String → Prop
  | bare : row.params = none → row.Claims row.name
  | signed {params : String} : row.params = some params → row.Claims (row.name ++ params)
  | erased {params rawParams : String} : row.params = some params →
      row.rawParams = some rawParams → row.Claims (row.name ++ rawParams)

theorem EntityRow.mem_claims {row : EntityRow} {name : String} :
    name ∈ row.claims ↔ row.Claims name := by
  unfold claims
  constructor
  · intro h
    split at h
    · rename_i hparams
      rw [List.mem_singleton.1 h]
      exact .bare hparams
    · rename_i params hparams
      rcases List.mem_append.1 h with h | h
      · obtain ⟨rawParams, hraw, rfl⟩ := Option.map_eq_some_iff.1 (Option.mem_toList.1 h)
        exact .erased hparams hraw
      · rw [List.mem_singleton.1 h]
        exact .signed hparams
  · intro h
    cases h with
    | bare hparams => simp [hparams]
    | signed hparams => simp [hparams]
    | erased hparams hraw => simp [hparams, hraw]

instance (row : EntityRow) (name : String) : Decidable (row.Claims name) :=
  decidable_of_iff _ EntityRow.mem_claims

/-- The declarations of some projects in the order in which they stream in: project by project,
and of each project as they were inserted. -/
def Store.stream (store : Store) (projects : List ProjectId) : List EntityRow :=
  projects.flatMap fun project => store.entities.toList.filter fun row =>
    row.project = project ∧ row.kind ∈ EntityKind.declared

theorem Store.Sound.declarationsOf_eq {store : Store} (h : store.Sound)
    (projects : List ProjectId) : store.declarationsOf projects = store.stream projects := by
  unfold declarationsOf stream
  congr 1
  funext project
  simp only [h.entitiesOf_eq, List.contains_iff_mem]

/-! ## What a table holds -/

/-- A table holds rows. There is one entity for each row, in order, whatever supertypes it has got
by now. A name denotes the first row that claims it, and nothing if no row does. -/
structure Table.Holds (table : Table) (origin : Origin) (rows : List EntityRow) : Prop where
  entity : table.arena.toList.map Entity.unwired = rows.map (·.entity origin)
  name : ∀ name slot, table.slot? name = some slot ↔ FirstAt (·.Claims name) rows slot
  free : ∀ name, table.slot? name = none ↔ ∀ row ∈ rows, ¬ row.Claims name

/-- An id leads to the last of some rows that is that of a type with this id. -/
def Table.LeadsToLast (table : Table) (rows : List EntityRow) : Prop :=
  ∀ id slot, table.typeSlot? id = some slot ↔
    LastAt (fun row => row.kind.isClassLike = true ∧ row.id = id) rows slot

namespace Table.Holds

variable {draft : Draft} {origin : Origin} {rows : List EntityRow}

theorem empty (origin : Origin) : ({} : Table).Holds origin [] where
  entity := rfl
  name name slot := by simp [slot?, FirstAt]
  free name := by simp [slot?]

theorem trackIds (h : ({} : Table).Holds origin []) : ({} : Table).trackIds.Holds origin [] where
  entity := h.entity
  name := h.name
  free := h.free

theorem size (h : draft.table.Holds origin rows) : draft.table.size = rows.length := by
  have hlength := congrArg List.length h.entity
  rwa [List.length_map, List.length_map, Array.length_toList] at hlength

/-- One row more: it takes the next slot and the names that are left to it. -/
theorem addRow (h : draft.table.Holds origin rows) (row : EntityRow) :
    (draft.addRow origin row).table.Holds origin (rows ++ [row]) := by
  obtain ⟨harena, -⟩ := Draft.table_addRow origin draft row
  have hsize : draft.table.arena.size = rows.length := h.size
  refine ⟨?_, ?_, ?_⟩
  · rw [harena, Array.toList_push, List.map_append, List.map_append, h.entity]
    rfl
  · intro name slot
    rw [Draft.slot?_addRow, firstAt_concat, Option.or_eq_some_iff, h.name, h.free,
      Option.ite_none_right_eq_some, EntityRow.mem_claims, Option.some.injEq, Table.size, hsize]
    constructor
    · rintro (hold | ⟨hfree, hclaims, rfl⟩)
      · exact .inl hold
      · exact .inr ⟨rfl, hclaims, hfree⟩
    · rintro (hold | ⟨rfl, hclaims, hfree⟩)
      · exact .inl hold
      · exact .inr ⟨hfree, hclaims, rfl⟩
  · intro name
    rw [Draft.slot?_addRow, Option.or_eq_none_iff, h.free, ite_eq_right_iff, EntityRow.mem_claims]
    simp [or_imp, forall_and]

theorem addRows (h : draft.table.Holds origin rows) (more : List EntityRow) :
    (more.foldl (Draft.addRow origin) draft).table.Holds origin (rows ++ more) := by
  induction more generalizing draft rows with
  | nil => rwa [List.append_nil]
  | cons row more ih =>
    have hall := ih (h.addRow row)
    rwa [List.append_assoc, List.singleton_append] at hall

/-- Wiring gives supertypes to entities and leads no name and no id elsewhere. -/
theorem wire (h : draft.table.Holds origin rows)
    (edges : List (Except Anomaly (Nat × EntityRef))) :
    (draft.wire edges).table.Holds origin rows := by
  refine ⟨?_, ?_, ?_⟩
  · rw [Draft.map_unwired_wire]
    exact h.entity
  · intro name slot
    rw [Draft.slot?_wire]
    exact h.name name slot
  · intro name
    rw [Draft.slot?_wire]
    exact h.free name

theorem inherit_foldl (h : draft.table.Holds origin rows) (toRef : Nat → EntityRef)
    (elsewhere : EntityId → Option EntityRef) (store : Store) (projects : List ProjectId) :
    (projects.foldl (Draft.inherit toRef elsewhere store) draft).table.Holds origin rows := by
  induction projects generalizing draft with
  | nil => exact h
  | cons project projects ih => exact ih (h.wire _)

theorem declare_foldl (h : draft.table.Holds origin rows) {store : Store} (hstore : store.Sound)
    (projects : List ProjectId) :
    (projects.foldl (Draft.declare origin store) draft).table.Holds origin
      (rows ++ store.stream projects) := by
  rw [Draft.declare_foldl, hstore.declarationsOf_eq]
  exact h.addRows _

theorem releaseIds {table : Table} (h : table.Holds origin rows) :
    table.releaseIds.Holds origin rows where
  entity := h.entity
  name := h.name
  free := h.free

/-- An index that covers a whole table leads to the last of its types with an id. -/
theorem leadsToLast {table : Table} (h : table.Holds origin rows) (hcovers : table.Covers 0) :
    table.LeadsToLast rows := by
  intro id slot
  rw [hcovers.leads, and_iff_right (Nat.zero_le slot)]
  -- Whether an entity is the type with an id can be told without its supertypes.
  have hentities := lastAt_map (p := (·.IsTypeOf id)) Entity.unwired table.arena.toList (i := slot)
  rw [h.entity, lastAt_map] at hentities
  exact hentities.symm

end Table.Holds

/-! ## Whole loads -/

theorem LibraryModel.empty_holds (mode : Mode) :
    (empty mode).draft.table.Holds .library [] := by
  cases mode with
  | plain => exact .empty .library
  | «virtual» => exact (Table.Holds.empty .library).trackIds

/-- A load puts its stream behind what the draft holds. -/
theorem Draft.fill_holds {draft : Draft} {rows : List EntityRow}
    (h : draft.table.Holds .library rows) {store : Store} (hstore : store.Sound) (mode : Mode)
    (libraries : List ProjectId) :
    (draft.fill mode store libraries).table.Holds .library (rows ++ store.stream libraries) := by
  have hdeclared := h.declare_foldl hstore libraries
  cases mode with
  | plain => exact hdeclared
  | «virtual» => exact hdeclared.inherit_foldl _ _ store libraries

namespace ProjectModel

/-- The declarations of a project, before they are wired. -/
def declared (store : Store) (project : ProjectId) : Draft :=
  Draft.ofDeclarations .internal store [project]

theorem holds_declared {store : Store} (hstore : store.Sound) (project : ProjectId) :
    (declared store project).table.Holds .internal (store.stream [project]) := by
  have hstart : ({ table := ({} : Table).trackIds } : Draft).table.Holds .internal [] :=
    (Table.Holds.empty .internal).trackIds
  exact hstart.declare_foldl hstore [project]

theorem covers_declared (store : Store) (project : ProjectId) :
    (declared store project).table.Covers 0 := by
  have hstart : ({ table := ({} : Table).trackIds } : Draft).table.Covers 0 := .ofUntracked rfl
  exact hstart.addRows .internal _

theorem contents_holds {store : Store} (hstore : store.Sound) (mode : Mode)
    (library : LibraryModel) (project : ProjectId) :
    (contents mode store library project).table.Holds .internal (store.stream [project]) := by
  cases mode with
  | plain =>
    have hstart : ({} : Draft).table.Holds .internal [] := .empty .internal
    exact hstart.declare_foldl hstore [project]
  | «virtual» =>
    exact (holds_declared hstore project).inherit_foldl .project library.findById? store [project]

theorem contents_covers (store : Store) (library : LibraryModel) (project : ProjectId) :
    (contents .virtual store library project).table.Covers 0 :=
  (covers_declared store project).wire _

end ProjectModel

/-- However names are claimed in a store, loading it leaves one entity for each declaration in the
order of the stream, binds each name to the first declaration that claims it and no other name,
and, while ids are tracked, leads each id to the last type that has it. It is so of libraries,
which track ids in virtual mode, and of a project, which tracks ids until it is wired. -/
theorem first_declaration_wins {store : Store} (hstore : store.Reached) :
    (∀ mode libraries desk model desk', desk.corpus.store = store →
      (LibraryModel.empty mode).loaded libraries desk = .ok model desk' →
      model.draft.table.Holds .library (store.stream libraries) ∧
        (model.tracksIds = true ↔ mode = .virtual) ∧
        (model.tracksIds = true → model.draft.table.LeadsToLast (store.stream libraries))) ∧
    ∀ project,
      (∀ mode library soleHolder desk model desk', desk.corpus.store = store →
        ProjectModel.build mode project library soleHolder desk = .ok model desk' →
        model.table.Holds .internal (store.stream [project])) ∧
      ∀ (library : LibraryModel) (bench after : Workbench), bench.desk.corpus.store = store →
        bench.draft = { table := ({} : Table).trackIds } →
        (do Loading.declarations project .internal
            Loading.inheritance project .project library.findById?) bench = .ok () after →
        after.draft.table.Holds .internal (store.stream [project]) ∧
          after.draft.table.LeadsToLast (store.stream [project]) := by
  have hsound := hstore.sound
  refine ⟨?_, fun project => ⟨?_, ?_⟩⟩
  · intro mode libraries desk model desk' hdesk hload
    obtain ⟨rfl, -⟩ := LibraryModel.loaded_eq_ok hload
    rw [hdesk]
    have hholds := Draft.fill_holds (LibraryModel.empty_holds mode) hsound mode libraries
    refine ⟨hholds, ?_, ?_⟩
    · rw [LibraryModel.tracksIds, Draft.tracks_fill]
      cases mode <;> simp [LibraryModel.empty, LibraryModel.prepare, Table.trackIds]
    · intro htracks
      rw [LibraryModel.tracksIds, Draft.tracks_fill] at htracks
      cases mode with
      | plain => cases htracks
      | «virtual» => exact hholds.leadsToLast (LibraryModel.KeepsIndex.empty.covers.fill _ _ _)
  · intro mode library soleHolder desk model desk' hdesk hbuild
    cases mode with
    | plain =>
      obtain ⟨rfl, -⟩ := ProjectModel.buildPlain_eq_ok hbuild
      rw [hdesk]
      exact ProjectModel.contents_holds hsound .plain library project
    | «virtual» =>
      obtain ⟨rfl, -⟩ := ProjectModel.buildVirtual_eq_ok hbuild
      rw [hdesk]
      exact (ProjectModel.contents_holds hsound .virtual library project).releaseIds
  · intro library bench after hbench hdraft hrun
    obtain ⟨_, mid, hdeclared, hinherited⟩ := bind_eq_ok.1 hrun
    have hdeclare := Loading.declarations_does project .internal bench
    have hinherit := Loading.inheritance_does project .project library.findById? mid
    unfold Loading.Does at hdeclare hinherit
    rw [hdeclared, hdraft, hbench] at hdeclare
    rw [hinherited, hdeclare.2.1, hdeclare.2.2] at hinherit
    have hcontents : after.draft = ProjectModel.contents .virtual store library project :=
      hinherit.2.1
    have hholds := ProjectModel.contents_holds hsound .virtual library project
    rw [hcontents]
    exact ⟨hholds, hholds.leadsToLast (ProjectModel.contents_covers store library project)⟩

/-- A class and a method with signatures in one library; in another one a field and a class whose
own names are what those claim. -/
def overlapStore : Store :=
  Store.ofRows
    [{ project := ⟨10⟩, name := "a.Box", kind := .class, params := some "<T>", id := ⟨1⟩ },
     { project := ⟨10⟩, name := "a.f", kind := .method, params := some "(int)"
       rawParams := some "()", id := ⟨2⟩ },
     { project := ⟨20⟩, name := "a.f()", kind := .field, id := ⟨3⟩ },
     { project := ⟨20⟩, name := "a.Box<T>", kind := .class, id := ⟨4⟩ }]

/-- The first library is listed again behind the second one. The field and the class of the second
one have no name left, and the id of the repeated class leads to its second entity. -/
theorem overlap_bound_first :
    let desk : Desk := { corpus := { store := overlapStore } }
    overlapStore.Reached ∧ ∃ model desk',
      (LibraryModel.empty .virtual).loaded [⟨10⟩, ⟨20⟩, ⟨10⟩] desk = .ok model desk' ∧
      model.draft.table.slot? "a.Box<T>" = some 0 ∧ model.draft.table.slot? "a.f()" = some 1 ∧
      model.draft.table.slot? "a.f" = none ∧ model.draft.table.typeSlot? ⟨1⟩ = some 4 ∧
      model.draft.table.typeSlot? ⟨4⟩ = some 3 := by
  intro desk
  have hreached : overlapStore.Reached := Store.reached_ofRows _
  have hok : succeeds ((LibraryModel.empty .virtual).loaded [⟨10⟩, ⟨20⟩, ⟨10⟩] desk) = true := by
    decide +kernel
  obtain ⟨model, desk', hload⟩ := exists_ok_of_succeeds hok
  obtain ⟨hholds, htracks, hlast⟩ :=
    (first_declaration_wins hreached).1 .virtual [⟨10⟩, ⟨20⟩, ⟨10⟩] _ _ _ rfl hload
  have hid := hlast (htracks.2 rfl)
  refine ⟨hreached, model, desk', hload, ?_, ?_, ?_, ?_, ?_⟩
  · exact (hholds.name "a.Box<T>" 0).2 (by decide +kernel)
  · exact (hholds.name "a.f()" 1).2 (by decide +kernel)
  · exact (hholds.free "a.f").2 (by decide +kernel)
  · exact (hid ⟨1⟩ 4).2 (by decide +kernel)
  · exact (hid ⟨4⟩ 3).2 (by decide +kernel)

end Referent
