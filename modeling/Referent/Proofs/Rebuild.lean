import Referent.Proofs.Enrichment
import Referent.Proofs.Restoring

/-!
# Building again after lookups

A model can be built from a store that lookups have written to, in the same run or in a later
one that starts from a saved snapshot. It is the same model (`Store.AfterLookups.builds_alike`): a
build reads what it read before, call by call, so it also fails where it would have failed
before, and with the same error.

* **Passes** (`Loading.InStep`): a pass over either store does the same to the draft and to the
  tasks, as long as the stores show the project alike.
* **Builds** (`BuildsAlike`): so every build of a library model and of a project model does.
* **Snapshots** (`Store.exists_restored`): a snapshot is always accepted again and holds the rows.
-/

namespace Referent

/-! ## The same desk over another store -/

/-- The desk with another store behind its calls. -/
def Desk.over (desk : Desk) (store : Store) : Desk :=
  { desk with corpus.store := store }

/-- The workbench with another store behind its calls. -/
def Workbench.over (bench : Workbench) (store : Store) : Workbench :=
  { bench with desk := bench.desk.over store }

/-- The same result in another state. -/
def relayed (change : σ → τ) : EStateM.Result ε σ α → EStateM.Result ε τ α
  | .ok a s => .ok a (change s)
  | .error err s => .error err (change s)

theorem Progress.finish_count (progress : Progress) (items : Nat) :
    (progress.count items).finish.2 = progress.finish.2 := by
  obtain ⟨tasks⟩ := progress
  cases tasks <;> rfl

theorem Access.entitiesOf_over (access : Access) (later : Store) (project : ProjectId)
    (kinds : List EntityKind) :
    ({ access with store := later } : Access).entitiesOf project kinds =
      match access.entitiesOf project kinds with
      | (.ok _, after) => (.ok (later.entitiesOf project kinds), { after with store := later })
      | (.error cause, after) => (.error cause, { after with store := later }) := by
  unfold entitiesOf call
  by_cases hplan : access.plan .readEntities (access.calls.get .readEntities) = true
  · simp [hplan]
  · simp [hplan]

theorem Access.relationsOf_over (access : Access) (later : Store) (project : ProjectId)
    (kinds : List RelationKind) :
    ({ access with store := later } : Access).relationsOf project kinds =
      match access.relationsOf project kinds with
      | (.ok _, after) => (.ok (later.relationsOf project kinds), { after with store := later })
      | (.error cause, after) => (.error cause, { after with store := later }) := by
  unfold relationsOf call
  by_cases hplan : access.plan .readRelations (access.calls.get .readRelations) = true
  · simp [hplan]
  · simp [hplan]

namespace Loading

/-! ## Programs in step -/

/-- Two programs go in step over two stores: from benches that differ in the store alone, both
fail with the same error or both answer, related by `R`, and the benches they leave again differ
in the store alone. -/
def InStep (store later : Store) (R : α → β → Prop) (work : Loading α) (other : Loading β) :
    Prop :=
  ∀ bench : Workbench, bench.desk.corpus.store = store →
    match work bench with
    | .ok a after => after.desk.corpus.store = store ∧
        ∃ b, R a b ∧ other (bench.over later) = .ok b (after.over later)
    | .error err after => after.desk.corpus.store = store ∧
        other (bench.over later) = .error err (after.over later)

variable {store later : Store}

theorem InStep.pure {R : α → β → Prop} {a : α} {b : β} (h : R a b) :
    InStep store later R (pure a) (pure b) := by
  intro bench hstore
  exact ⟨hstore, b, h, rfl⟩

theorem InStep.bind {R : α → β → Prop} {S : γ → δ → Prop} {work : Loading α}
    {other : Loading β} {next : α → Loading γ} {next' : β → Loading δ}
    (h : InStep store later R work other)
    (hnext : ∀ a b, R a b → InStep store later S (next a) (next' b)) :
    InStep store later S (work >>= next) (other >>= next') := by
  intro bench hstore
  have hfirst := h bench hstore
  rw [bind_apply, bind_apply]
  cases hrun : work bench with
  | error err after =>
    rw [hrun] at hfirst
    obtain ⟨hafter, hother⟩ := hfirst
    rw [hother]
    exact ⟨hafter, rfl⟩
  | ok a after =>
    rw [hrun] at hfirst
    obtain ⟨hafter, b, hab, hother⟩ := hfirst
    rw [hother]
    exact hnext a b hab after hafter

/-- A change that the store has no part in. -/
theorem InStep.modify {change : Workbench → Workbench}
    (hstore : ∀ bench, (change bench).desk.corpus.store = bench.desk.corpus.store)
    (hover : ∀ bench : Workbench, change (bench.over later) = (change bench).over later) :
    InStep store later (fun _ _ => True) (modify change) (modify change) := by
  intro bench hbench
  refine ⟨(hstore bench).trans hbench, (), trivial, ?_⟩
  show EStateM.Result.ok () (change (bench.over later)) = _
  rw [hover]

/-- Both see the bench they work at. -/
theorem InStep.get : InStep store later (fun bench bench' => bench' = bench.over later) get get :=
  fun bench hstore => ⟨hstore, bench.over later, rfl, rfl⟩

theorem InStep.report (change : Progress → Progress) :
    InStep store later (fun _ _ => True) (report change) (report change) :=
  .modify (fun _ => rfl) fun _ => rfl

theorem InStep.task {R : α → β → Prop} {work : Loading α} {other : Loading β} (name : String)
    (unit : Option String) (h : InStep store later R work other) :
    InStep store later R (task name unit work) (task name unit other) := by
  unfold Loading.task
  refine (InStep.report _).bind fun _ _ _ => ?_
  refine h.bind fun a b hab => ?_
  exact (InStep.report _).bind fun _ _ _ => .pure hab

/-- Closing tasks looks at nothing but their number, which is the same for both. -/
theorem InStep.closingTasks {R : α → β → Prop} {work : Loading α} {other : Loading β}
    (h : InStep store later R work other) :
    InStep store later R (closingTasks work) (closingTasks other) := by
  intro bench hstore
  have hwork := h bench hstore
  unfold Loading.closingTasks
  cases hrun : work bench with
  | ok a after =>
    rw [hrun] at hwork
    obtain ⟨hafter, b, hab, hother⟩ := hwork
    rw [hother]
    exact ⟨hafter, b, hab, rfl⟩
  | error err after =>
    rw [hrun] at hwork
    obtain ⟨hafter, hother⟩ := hwork
    rw [hother]
    exact ⟨hafter, rfl⟩

theorem InStep.forM {pass : ProjectId → Loading Unit} {projects : List ProjectId}
    (h : ∀ project ∈ projects,
      InStep store later (fun _ _ => True) (pass project) (pass project)) :
    InStep store later (fun _ _ => True) (projects.forM pass) (projects.forM pass) := by
  induction projects with
  | nil => exact .pure trivial
  | cons project projects ih =>
    refine (h project List.mem_cons_self).bind fun _ _ _ => ?_
    exact ih fun other hother => h other (List.mem_cons_of_mem _ hother)

theorem InStep.askEntities (project : ProjectId) (kinds : List EntityKind) :
    InStep store later
      (fun rows rows' => rows = store.entitiesOf project kinds ∧
        rows' = later.entitiesOf project kinds)
      (ask (·.entitiesOf project kinds)) (ask (·.entitiesOf project kinds)) := by
  intro bench hstore
  obtain ⟨hkept, hrows⟩ := bench.desk.corpus.entitiesOf_cases project kinds
  have hover := bench.desk.corpus.entitiesOf_over later project kinds
  unfold ask
  simp only [Workbench.over, Desk.over]
  rw [hover]
  rw [hstore] at hkept hrows
  cases hread : bench.desk.corpus.entitiesOf project kinds with
  | mk answer after =>
    rw [hread] at hkept hrows
    cases answer with
    | ok rows => exact ⟨hkept, _, ⟨hrows rows rfl, rfl⟩, rfl⟩
    | error cause => exact ⟨hkept, rfl⟩

theorem InStep.askRelations (project : ProjectId) (kinds : List RelationKind) :
    InStep store later
      (fun rows rows' => rows = store.relationsOf project kinds ∧
        rows' = later.relationsOf project kinds)
      (ask (·.relationsOf project kinds)) (ask (·.relationsOf project kinds)) := by
  intro bench hstore
  obtain ⟨hkept, hrows⟩ := bench.desk.corpus.relationsOf_cases project kinds
  have hover := bench.desk.corpus.relationsOf_over later project kinds
  unfold ask
  simp only [Workbench.over, Desk.over]
  rw [hover]
  rw [hstore] at hkept hrows
  cases hread : bench.desk.corpus.relationsOf project kinds with
  | mk answer after =>
    rw [hread] at hkept hrows
    cases answer with
    | ok rows => exact ⟨hkept, _, ⟨hrows rows rfl, rfl⟩, rfl⟩
    | error cause => exact ⟨hkept, rfl⟩

/-- The items that a task has counted are gone when it ends. -/
theorem InStep.counted {R : α → β → Prop} {work : Loading (List γ)} {other : Loading (List δ)}
    {S : List γ → List δ → Prop} (name : String) (unit : Option String)
    {answer : List γ → α} {answer' : List δ → β} (h : InStep store later S work other)
    (hanswer : ∀ rows rows', S rows rows' → R (answer rows) (answer' rows')) :
    InStep store later R
      (Loading.task name unit do
        let rows ← work
        Loading.report (·.count rows.length)
        return answer rows)
      (Loading.task name unit do
        let rows ← other
        Loading.report (·.count rows.length)
        return answer' rows) := by
  intro bench hstore
  have hwork := h (starting name unit bench) hstore
  have hstart : (starting name unit bench).over later = starting name unit (bench.over later) := rfl
  rw [hstart] at hwork
  rw [task_eq, task_eq, bind_apply, bind_apply]
  cases hrun : work (starting name unit bench) with
  | error err after =>
    rw [hrun] at hwork
    obtain ⟨hafter, hother⟩ := hwork
    rw [hother]
    exact ⟨hafter, rfl⟩
  | ok rows after =>
    rw [hrun] at hwork
    obtain ⟨hafter, rows', hrows, hother⟩ := hwork
    rw [hother]
    refine ⟨hafter, answer' rows', hanswer rows rows' hrows, ?_⟩
    show EStateM.Result.ok (answer' rows')
        { after.over later with
          desk.progress := (after.desk.progress.count rows'.length).finish.2 } =
      .ok (answer' rows') (({ after with
          desk.progress := (after.desk.progress.count rows.length).finish.2 } : Workbench).over
        later)
    rw [Progress.finish_count, Progress.finish_count]
    rfl

/-! ## The passes -/

theorem declarations_inStep {project : ProjectId} (h : store.ShowsAlike later project)
    (origin : Origin) :
    InStep store later (fun _ _ => True) (declarations project origin)
      (declarations project origin) := by
  refine InStep.task _ _ ?_
  refine (InStep.askEntities project EntityKind.declared).bind ?_
  rintro rows rows' ⟨rfl, rfl⟩
  rw [h.declarations]
  refine InStep.bind (InStep.modify ?_ ?_) fun _ _ _ => InStep.report _
  · exact fun _ => rfl
  · exact fun _ => rfl

theorem inheritance_inStep {project : ProjectId} (h : store.ShowsAlike later project)
    (toRef : Nat → EntityRef) (elsewhere : EntityId → Option EntityRef) :
    InStep store later (fun _ _ => True) (inheritance project toRef elsewhere)
      (inheritance project toRef elsewhere) := by
  refine InStep.task _ _ ?_
  refine InStep.bind (R := fun bases bases' =>
    bases = baseTypes (store.relationsOf project [.hasBaseType]) ∧
      bases' = baseTypes (later.relationsOf project [.hasBaseType])) ?_ ?_
  · refine (InStep.askRelations project [.hasBaseType]).counted _ _ ?_
    rintro rows rows' ⟨rfl, rfl⟩
    exact ⟨rfl, rfl⟩
  · rintro bases bases' ⟨rfl, rfl⟩
    refine InStep.task _ _ ?_
    refine (InStep.askRelations project RelationKind.inheritance).bind ?_
    rintro rows rows' ⟨rfl, rfl⟩
    rw [h.inheritance]
    refine InStep.get.bind ?_
    rintro bench _ rfl
    have hedges : (store.relationsOf project RelationKind.inheritance).map
          (bench.draft.table.edge toRef elsewhere
            (baseTypes (later.relationsOf project [.hasBaseType]))) =
        (store.relationsOf project RelationKind.inheritance).map
          (bench.draft.table.edge toRef elsewhere
            (baseTypes (store.relationsOf project [.hasBaseType]))) := by
      apply List.map_congr_left
      intro row hrow
      simp only [Table.edge, h.bases row hrow]
    simp only [Workbench.over, hedges]
    refine InStep.bind (InStep.modify ?_ ?_) fun _ _ _ => InStep.report _
    · exact fun _ => rfl
    · exact fun _ => rfl

end Loading

/-! ## Builds -/

/-- Whatever is built over one store is built over the other: the builds answer the same model
or fail with the same error, and what they leave differs in the store alone. -/
structure BuildsAlike (store later : Store) : Prop where
  /-- More libraries are loaded into a model that is being built, whatever is in it by now. -/
  load (libraries : List ProjectId) (model : LibraryModel) (desk : Desk) :
    desk.corpus.store = store → LibraryModel.load libraries (model, desk.over later) =
      relayed (Prod.map id (·.over later)) (LibraryModel.load libraries (model, desk))
  library (mode : Mode) (libraries : List ProjectId) (core : Option LibraryModel) (desk : Desk) :
    desk.corpus.store = store → LibraryModel.build mode libraries core (desk.over later) =
      relayed (·.over later) (LibraryModel.build mode libraries core desk)
  project (mode : Mode) (project : ProjectId) (library : LibraryModel) (soleHolder : Bool)
      (desk : Desk) : desk.corpus.store = store →
    ProjectModel.build mode project library soleHolder (desk.over later) =
      relayed (·.over later) (ProjectModel.build mode project library soleHolder desk)

section Builds

open Loading

variable {store later : Store}

theorem LibraryModel.passes_inStep (h : ∀ project, store.ShowsAlike later project) (mode : Mode)
    (libraries : List ProjectId) :
    InStep store later (fun _ _ => True) (passes mode libraries) (passes mode libraries) := by
  refine InStep.bind (InStep.forM fun library _ => declarations_inStep (h library) .library) ?_
  intro _ _ _
  cases mode with
  | plain => exact .pure trivial
  | «virtual» =>
    exact InStep.forM fun library _ => inheritance_inStep (h library) .library fun _ => none

theorem LibraryModel.load_over (h : ∀ project, store.ShowsAlike later project)
    (libraries : List ProjectId) (model : LibraryModel) {desk : Desk}
    (hdesk : desk.corpus.store = store) : load libraries (model, desk.over later) =
      relayed (Prod.map id (·.over later)) (load libraries (model, desk)) := by
  have hwork := (InStep.task ("Loading " ++ toString libraries.length ++ " libraries") none
    (passes_inStep h model.mode libraries)).closingTasks { desk, draft := model.draft } hdesk
  have hstart : ({ desk, draft := model.draft } : Workbench).over later =
      { desk := desk.over later, draft := model.draft } := rfl
  rw [hstart] at hwork
  unfold load
  simp only
  revert hwork
  cases closingTasks _ { desk, draft := model.draft } with
  | ok a after =>
    rintro ⟨-, b, -, hother⟩
    rw [hother]
    rfl
  | error err after =>
    rintro ⟨-, hother⟩
    rw [hother]
    rfl

theorem LibraryModel.loaded_over (h : ∀ project, store.ShowsAlike later project)
    (libraries : List ProjectId) (model : LibraryModel) {desk : Desk}
    (hdesk : desk.corpus.store = store) : model.loaded libraries (desk.over later) =
      relayed (·.over later) (model.loaded libraries desk) := by
  unfold loaded
  rw [load_over h libraries model hdesk]
  cases load libraries (model, desk) <;> rfl

theorem ProjectModel.assemble_over (project : ProjectId) (library : LibraryModel) (start : Table)
    (title : String) {passes : Loading Unit}
    (hpasses : InStep store later (fun _ _ => True) passes passes) {desk : Desk}
    (hdesk : desk.corpus.store = store) :
    assemble project library start title passes (desk.over later) =
      relayed (·.over later) (assemble project library start title passes desk) := by
  have hwork := (InStep.task (title ++ " for " ++ project.display) none
    hpasses).closingTasks { desk, draft.table := start } hdesk
  have hstart : ({ desk, draft.table := start } : Workbench).over later =
      { desk := desk.over later, draft.table := start } := rfl
  rw [hstart] at hwork
  unfold assemble
  simp only
  revert hwork
  cases closingTasks _ { desk, draft.table := start } with
  | ok a after =>
    rintro ⟨-, b, -, hother⟩
    rw [hother]
    rfl
  | error err after =>
    rintro ⟨-, hother⟩
    rw [hother]
    rfl

theorem ProjectModel.build_over (h : ∀ project, store.ShowsAlike later project) (mode : Mode)
    (project : ProjectId) (library : LibraryModel) (soleHolder : Bool) {desk : Desk}
    (hdesk : desk.corpus.store = store) :
    build mode project library soleHolder (desk.over later) =
      relayed (·.over later) (build mode project library soleHolder desk) := by
  cases mode with
  | plain =>
    exact assemble_over project library {} _ (declarations_inStep (h project) .internal) hdesk
  | «virtual» =>
    have hassemble := assemble_over project library ({} : Table).trackIds
      "Building virtual type model" ((declarations_inStep (h project) .internal).bind fun _ _ _ =>
        inheritance_inStep (h project) .project library.findById?) hdesk
    show buildVirtual project library soleHolder (desk.over later) =
      relayed (·.over later) (buildVirtual project library soleHolder desk)
    unfold buildVirtual
    rw [bind_apply, bind_apply, hassemble]
    cases assemble project library ({} : Table).trackIds "Building virtual type model" _ desk <;>
      rfl

/-- Stores that show every project alike are alike for every build. -/
theorem BuildsAlike.of_showsAlike (h : ∀ project, store.ShowsAlike later project) :
    BuildsAlike store later where
  load libraries model _ hdesk := LibraryModel.load_over h libraries model hdesk
  library _ libraries _ _ hdesk := LibraryModel.loaded_over h libraries _ hdesk
  project mode project library soleHolder _ hdesk :=
    ProjectModel.build_over h mode project library soleHolder hdesk

end Builds

/-! ## Snapshots -/

namespace Store

/-- A snapshot is accepted again, and holds every row. -/
theorem exists_restored {store : Store} (hstore : store.Reached) :
    ∃ restored, ofSnapshot store.snapshot = .ok restored ∧ restored.Reached ∧
      restored.entities = store.entities ∧ restored.relations = store.relations :=
  ⟨store, ofSnapshot_snapshot hstore, hstore, rfl, rfl⟩

/-! ## After lookups -/

/-- A store that lookups have led to from another one. Any models may have been asked, also
models that were built in between, with any caches and any failures of the store; and the store
may have been saved and restored at any time. -/
inductive AfterLookups (store : Store) : Store → Prop
  | itself : AfterLookups store store
  | asked (state : LookupState) (question : Question) : AfterLookups store state.corpus.store →
      AfterLookups store (state.leaving question.ask).corpus.store
  | restored {saved restored : Store} : AfterLookups store saved →
      ofSnapshot saved.snapshot = .ok restored → AfterLookups store restored

variable {store later : Store}

theorem AfterLookups.enriches (h : store.AfterLookups later) (hstore : store.Reached) :
    store.Enriches (fun _ => True) later := by
  induction h with
  | itself => exact .refl _ hstore
  | asked state question _ ih =>
    exact ((Lookup.enrichment_upkeep store fun _ => True).question question ⟨ih, trivial⟩).1
  | restored _ hrestored ih =>
    rw [ofSnapshot_snapshot ih.reached] at hrestored
    cases hrestored
    exact ih

/-- Rows that lookups have written make no difference to any build, if every supertype that the
inheritance rows of the store name has a row; and a snapshot of them can be restored. -/
theorem AfterLookups.builds_alike (h : store.AfterLookups later) (hstore : store.Reached)
    (hends : ∀ row ∈ store.relations.toList, row.kind ∈ RelationKind.inheritance →
      store.Uses row.right) :
    BuildsAlike store later ∧ ∃ restored, ofSnapshot later.snapshot = .ok restored := by
  have henriches := h.enriches hstore
  obtain ⟨restored, hrestored, -⟩ := exists_restored henriches.reached
  exact ⟨.of_showsAlike (henriches.showsAlike hstore.sound hends), restored, hrestored⟩

/-- A store with a library that declares `a.Box` and a project whose `p.Leaf` extends it. -/
def leafStore : Store :=
  (ofRows [{ project := ⟨10⟩, name := "a.Box", kind := .class, id := ⟨1⟩ },
      { project := ⟨1⟩, name := "p.Leaf", kind := .class, id := ⟨2⟩ }]).relate
    { kind := .extends, left := ⟨2⟩, right := ⟨1⟩, project := ⟨1⟩ }

/-- A lookup files the base type of `a.Box<p.Leaf>` under the project, and the project is built
as before. -/
theorem AfterLookups.parameterized_type_overlooked :
    let library : LibraryModel :=
      { mode := .virtual, draft := Draft.declare .library leafStore {} ⟨10⟩ }
    let table := (ProjectModel.contents .virtual leafStore library ⟨1⟩).table
    let state : LookupState :=
      { corpus := { store := leafStore }, cache := { owner := ⟨9⟩ }
        model := { project := ⟨1⟩, library, table } }
    let later := (state.leaving (Question.plain "a.Box<p.Leaf>").ask).corpus.store
    leafStore.Reached ∧ leafStore.AfterLookups later ∧
      later.relationsOf ⟨1⟩ [.hasBaseType] =
        [{ kind := .hasBaseType, left := ⟨3⟩, right := ⟨1⟩, project := ⟨1⟩, origin := .library }] ∧
      ProjectModel.build .virtual ⟨1⟩ library false { corpus := { store := later } } =
        relayed (·.over later)
          (ProjectModel.build .virtual ⟨1⟩ library false { corpus := { store := leafStore } }) := by
  intro library table state later
  have hstore : leafStore.Reached := (reached_ofRows _).relate _
  have hlater : leafStore.AfterLookups later := .asked state _ .itself
  have hends : ∀ row ∈ leafStore.relations.toList, row.kind ∈ RelationKind.inheritance →
      row.right ∈ leafStore.entities.toList.map (·.id) := by decide +kernel
  refine ⟨hstore, hlater, by decide +kernel, ?_⟩
  exact (hlater.builds_alike hstore hends).1.project .virtual ⟨1⟩ library false
    { corpus := { store := leafStore } } rfl

end Store

end Referent
