import Referent.Proofs.Steady
import Referent.Proofs.Upkeep

/-!
# What loading sees of the rows that lookups write

Lookups write rows of their own, filed under the projects whose rows loading reads: entities of
compound types and placeholders, and the relations of compound types to their parts. A load sees
none of them (`Enriches.showsAlike`). Their kinds are not declared, their relations are no
inheritance, and the one kind of relation that loading does read, from a parameterized type to
its base type, redirects only ids that are new (`Enriches.bases`). A load of a project that
nothing was filed under sees the same even of relations (`Enriches.showsAlike_of_not_filed`).
-/

namespace Referent

namespace Store

/-! ## Enriched stores -/

/-- A later store has more rows, none of them declared, and more relations, all between types
and their parts, at types that were not there before. The relations are filed under projects
that are `filed`. -/
structure Enriches (filed : ProjectId → Prop) (store later : Store) : Prop where
  reached : later.Reached
  rows : ∃ rows, later.entities.toList = store.entities.toList ++ rows ∧
    ∀ row ∈ rows, row.kind ∉ EntityKind.declared
  links : ∃ links, later.relations.toList = store.relations.toList ++ links ∧
    ∀ link ∈ links, link.kind ∉ RelationKind.inheritance ∧ ¬ store.Uses link.left ∧
      filed link.project

variable {filed : ProjectId → Prop} {store later last : Store}

theorem Enriches.refl (filed : ProjectId → Prop) (hstore : store.Reached) :
    store.Enriches filed store where
  reached := hstore
  rows := ⟨[], by simp, by simp⟩
  links := ⟨[], by simp, by simp⟩

/-- Ids that were there before stay there. -/
theorem Enriches.uses (h : store.Enriches filed later) {id : EntityId} (hid : store.Uses id) :
    later.Uses id := by
  obtain ⟨rows, heq, -⟩ := h.rows
  unfold Uses at hid ⊢
  rw [heq, List.map_append, List.mem_append]
  exact .inl hid

/-- A new row whose kind is not declared. -/
theorem Enriches.inserted (h : store.Enriches filed later) {entry : Entry} {id : EntityId}
    (hkind : entry.kind ∉ EntityKind.declared) (hinserted : later.Inserted entry id last) :
    store.Enriches filed last where
  reached := hinserted.reached h.reached
  rows := by
    obtain ⟨rows, heq, hrows⟩ := h.rows
    refine ⟨rows ++ [{ entry with id }], ?_, fun row hrow => ?_⟩
    · rw [hinserted.entities, Array.toList_push, heq, List.append_assoc]
    · rcases List.mem_append.1 hrow with hrow | hrow
      · exact hrows row hrow
      · rw [List.mem_singleton.1 hrow]
        exact hkind
  links := by
    rw [hinserted.relations]
    exact h.links

/-- A relation of a new type to one of its parts. -/
theorem Enriches.relate (h : store.Enriches filed later) {link : RelationRow}
    (hkind : link.kind ∉ RelationKind.inheritance) (hleft : ¬ store.Uses link.left)
    (hproject : filed link.project) : store.Enriches filed (later.relate link) where
  reached := h.reached.relate link
  rows := h.rows
  links := by
    obtain ⟨links, heq, hlinks⟩ := h.links
    refine ⟨links ++ [link], ?_, fun other hother => ?_⟩
    · rw [Store.relate, Array.toList_push, heq, List.append_assoc]
    · rcases List.mem_append.1 hother with hother | hother
      · exact hlinks other hother
      · rw [List.mem_singleton.1 hother]
        exact ⟨hkind, hleft, hproject⟩

/-! ## What loading sees -/

/-- Loading a project sees the same in both stores: the same declarations, the same inheritance
and, for every supertype in it, the same base type. -/
structure ShowsAlike (store later : Store) (project : ProjectId) : Prop where
  declarations : later.entitiesOf project EntityKind.declared =
    store.entitiesOf project EntityKind.declared
  inheritance : later.relationsOf project RelationKind.inheritance =
    store.relationsOf project RelationKind.inheritance
  bases : ∀ row ∈ store.relationsOf project RelationKind.inheritance,
    (baseTypes (later.relationsOf project [.hasBaseType])).getD row.right row.right =
      (baseTypes (store.relationsOf project [.hasBaseType])).getD row.right row.right

theorem filter_append_of_none {rows more : List α} {p : α → Bool}
    (h : ∀ row ∈ more, p row = false) : (rows ++ more).filter p = rows.filter p := by
  have hnone : more.filter p = [] := by
    rw [List.filter_eq_nil_iff]
    intro row hrow
    rw [h row hrow]
    exact Bool.false_ne_true
  rw [List.filter_append, hnone, List.append_nil]

theorem Enriches.entitiesOf (h : store.Enriches filed later) (hstore : store.Sound)
    (project : ProjectId) : later.entitiesOf project EntityKind.declared =
      store.entitiesOf project EntityKind.declared := by
  obtain ⟨rows, heq, hrows⟩ := h.rows
  rw [h.reached.sound.entitiesOf_eq, hstore.entitiesOf_eq, heq, filter_append_of_none]
  intro row hrow
  have := hrows row hrow
  simp [this]

theorem Enriches.relationsOf (h : store.Enriches filed later) (hstore : store.Sound)
    {project : ProjectId} {kinds : List RelationKind}
    (hunseen : ∀ link : RelationRow, link.kind ∉ RelationKind.inheritance → filed link.project →
      link.project = project → link.kind ∉ kinds) :
    later.relationsOf project kinds = store.relationsOf project kinds := by
  obtain ⟨links, heq, hlinks⟩ := h.links
  rw [h.reached.sound.relationsOf_eq, hstore.relationsOf_eq, heq, filter_append_of_none]
  intro link hlink
  obtain ⟨hkind, -, hproject⟩ := hlinks link hlink
  by_cases hsame : link.project = project
  · simp [hsame, hunseen link hkind hproject hsame]
  · simp [hsame]

/-- Rows about other types do not change the base type of this one. -/
theorem getD_baseTypes_append {rows more : List RelationRow} {id : EntityId}
    (h : ∀ row ∈ more, row.left ≠ id) (default : EntityId) :
    (baseTypes (rows ++ more)).getD id default = (baseTypes rows).getD id default := by
  rw [baseTypes, List.foldl_append, ← baseTypes]
  induction more generalizing rows with
  | nil => rfl
  | cons row more ih =>
    have hstep : baseTypes (rows ++ [row]) = (baseTypes rows).insert row.left row.right := by
      rw [baseTypes, List.foldl_append, ← baseTypes]
      rfl
    rw [List.foldl_cons, ← hstep]
    refine (ih fun other hother => h other (List.mem_cons_of_mem _ hother)).trans ?_
    rw [hstep, Std.TreeMap.getD_insert, if_neg]
    intro heq
    exact h row List.mem_cons_self (Std.LawfulEqOrd.eq_of_compare heq)

/-- New parameterized types redirect new ids only. -/
theorem Enriches.bases (h : store.Enriches filed later) (hstore : store.Sound)
    (project : ProjectId) {id : EntityId} (hid : store.Uses id) (default : EntityId) :
    (baseTypes (later.relationsOf project [.hasBaseType])).getD id default =
      (baseTypes (store.relationsOf project [.hasBaseType])).getD id default := by
  obtain ⟨links, heq, hlinks⟩ := h.links
  rw [h.reached.sound.relationsOf_eq, hstore.relationsOf_eq, heq, List.filter_append]
  apply getD_baseTypes_append
  rintro link hlink rfl
  exact (hlinks link (List.mem_filter.1 hlink).1).2.1 hid

theorem mem_relationsOf (hstore : store.Sound) {project : ProjectId}
    {kinds : List RelationKind} {row : RelationRow} (h : row ∈ store.relationsOf project kinds) :
    row ∈ store.relations.toList ∧ row.project = project ∧ row.kind ∈ kinds := by
  rw [hstore.relationsOf_eq, List.mem_filter] at h
  simpa using h

/-- Where supertypes have rows, loading sees nothing new. -/
theorem Enriches.showsAlike (h : store.Enriches filed later) (hstore : store.Sound)
    (hends : ∀ row ∈ store.relations.toList, row.kind ∈ RelationKind.inheritance →
      store.Uses row.right) (project : ProjectId) : store.ShowsAlike later project where
  declarations := h.entitiesOf hstore project
  inheritance := h.relationsOf hstore fun _ hkind _ _ => hkind
  bases row hrow := by
    obtain ⟨hmem, -, hkind⟩ := mem_relationsOf hstore hrow
    exact h.bases hstore project (hends row hmem hkind) row.right

/-- Where no relations were filed, loading sees nothing new, wherever supertypes are. -/
theorem Enriches.showsAlike_of_not_filed (h : store.Enriches filed later) (hstore : store.Sound)
    {project : ProjectId} (hproject : ¬ filed project) : store.ShowsAlike later project where
  declarations := h.entitiesOf hstore project
  inheritance := h.relationsOf hstore fun _ hkind _ _ => hkind
  bases row _ := by
    have hbases : later.relationsOf project [.hasBaseType] =
        store.relationsOf project [.hasBaseType] := by
      apply h.relationsOf hstore
      rintro link - hfiled rfl
      exact absurd hfiled hproject
    rw [hbases]

theorem ShowsAlike.declare (h : store.ShowsAlike later project) (origin : Origin)
    (draft : Draft) : draft.declare origin later project = draft.declare origin store project := by
  rw [Draft.declare, Draft.declare, h.declarations]

theorem ShowsAlike.inherit (h : store.ShowsAlike later project) (toRef : Nat → EntityRef)
    (elsewhere : EntityId → Option EntityRef) (draft : Draft) :
    draft.inherit toRef elsewhere later project = draft.inherit toRef elsewhere store project := by
  rw [Draft.inherit, Draft.inherit, h.inheritance]
  congr 1
  apply List.map_congr_left
  intro row hrow
  simp only [Table.edge, h.bases row hrow]

/-- So a project is built alike from both. -/
theorem ShowsAlike.contents (h : store.ShowsAlike later project) (mode : Mode)
    (library : LibraryModel) : ProjectModel.contents mode later library project =
      ProjectModel.contents mode store library project := by
  cases mode with
  | plain => exact h.declare .internal {}
  | «virtual» => rw [ProjectModel.contents, ProjectModel.contents, h.inherit, h.declare]

end Store

/-! ## Lookups enrich -/

theorem Name.not_inheritance_of_mem_constituents {shape : Name.Shape}
    {part : RelationKind × String} (h : part ∈ shape.constituents) :
    part.1 ∉ RelationKind.inheritance := by
  cases shape with
  | array element dimensions =>
    rw [List.mem_singleton.1 h]
    show RelationKind.hasElementsOf ∉ RelationKind.inheritance
    decide
  | wildcard bound =>
    cases bound with
    | unbounded => cases h
    | upper type =>
      rw [List.mem_singleton.1 h]
      show RelationKind.hasUpperBound ∉ RelationKind.inheritance
      decide
    | lower type =>
      rw [List.mem_singleton.1 h]
      show RelationKind.hasLowerBound ∉ RelationKind.inheritance
      decide
  | typeVariable parameter bounds =>
    obtain ⟨bound, -, rfl⟩ := List.mem_map.1 h
    show RelationKind.hasUpperBound ∉ RelationKind.inheritance
    decide
  | parameterized base arguments =>
    rcases List.mem_cons.1 h with rfl | h
    · show RelationKind.hasBaseType ∉ RelationKind.inheritance
      decide
    · obtain ⟨argument, -, rfl⟩ := List.mem_map.1 h
      show RelationKind.hasTypeArgument ∉ RelationKind.inheritance
      decide
  | simple => cases h

namespace Lookup

variable {state : LookupState} {name : String}

/-- What a step leaves of the store is the store of before, or has the row of a placeholder. -/
theorem leaving_unknown_cases (hsound : state.corpus.store.Sound) (name : String) :
    (state.leaving (unknown name)).model.project = state.model.project ∧
      ((state.leaving (unknown name)).corpus.store = state.corpus.store ∨
        ∃ id, state.corpus.store.Inserted { project := state.cache.owner, name, kind := .unknown }
          id (state.leaving (unknown name)).corpus.store) := by
  cases hcached : state.model.placeholders[name]? with
  | some ref =>
    rw [LookupState.leaving_of_ok (unknown_cached hcached)]
    exact ⟨rfl, .inl rfl⟩
  | none =>
    rcases unknown_cases hsound hcached with
      ⟨id, corpus, cache, hrun, hstore⟩ | ⟨cause, corpus, hrun, hstore⟩
    · rw [LookupState.leaving_of_ok hrun]
      exact ⟨rfl, hstore.imp_right fun hinserted => ⟨id, hinserted⟩⟩
    · rw [LookupState.leaving_of_error hrun]
      exact ⟨rfl, .inl hstore⟩

/-- Every step of a lookup only enriches the store, under the project of the model. -/
theorem enrichment_upkeep (store : Store) (filed : ProjectId → Prop) :
    Upkeep (fun state => store.Enriches filed state.corpus.store ∧ filed state.model.project)
      (fun id => ¬ store.Uses id) where
  made {state name kind} hstate hfree hkind := by
    obtain ⟨henriches, hfiled⟩ := hstate
    have hmade := EntityKind.not_declared_of_isSynthesized (isSynthesized_of_compoundKind? hkind)
    rcases synthesize_cases henriches.reached.sound hfree kind with
      ⟨id, corpus, hrun, hinserted⟩ | ⟨cause, corpus, hrun, hstore⟩
    · rw [hrun]
      exact ⟨⟨henriches.inserted hmade hinserted, hfiled⟩,
        fun huses => hinserted.fresh (henriches.uses huses)⟩
    · rw [hrun]
      exact ⟨by simpa [hstore] using henriches, hfiled⟩
  related {_ state id name part target} _ _ hstate hid hpart := by
    obtain ⟨henriches, hfiled⟩ := hstate
    rcases leaving_relateTo_cases id part.1 target state with
      ⟨corpus, hafter, hsame⟩ | ⟨entity, corpus, -, hafter, hrelated⟩
    · rw [hafter]
      exact ⟨by simpa [hsame] using henriches, hfiled⟩
    · rw [hafter]
      refine ⟨?_, hfiled⟩
      simp only [hrelated]
      exact henriches.relate (Name.not_inheritance_of_mem_constituents hpart) hid hfiled
  placeholder {state} name hstate := by
    obtain ⟨henriches, hfiled⟩ := hstate
    obtain ⟨hproject, hsame | ⟨id, hinserted⟩⟩ :=
      leaving_unknown_cases henriches.reached.sound name
    · exact ⟨by rwa [hsame], by rwa [hproject]⟩
    · have hunknown : EntityKind.unknown ∉ EntityKind.declared := by decide
      exact ⟨henriches.inserted hunknown hinserted, by rwa [hproject]⟩
  forgetting _ hstate := hstate
  noting _ hstate := hstate
  remembering _ _ hstate := hstate

end Lookup

end Referent
