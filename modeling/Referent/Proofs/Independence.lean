import Referent.Run.Resolve
import Referent.Proofs.Alike
import Referent.Proofs.Enrichment
import Referent.Proofs.Index

/-!
# Projects of a run do not influence each other

The projects of a run share a store, a cache of placeholders and a library. What a run reports of
a project is nevertheless what a run over the project alone reports, but for the ids of rows that
lookups insert (`Run.projects_independent`).

* **Built alike**: projects before it only add rows that no load sees and relations that are
  filed under themselves (`enriched_before`), so the project is built alike (`build_alike`).
* **Resolved alike**: lookups in models that differ in ids alone answer the same
  (`resolveNames_alike`), whatever is in the store and in the cache by then.
* **The library** is the same in both runs, as it is read off the store (`sharedLibrary_eq_ok`),
  and it is there for every project with its index by id, since the run gives up its hold with
  the last project only (`resolveProjects_ne_releasedEarly`, `sharedLibrary_indexed`).
-/

namespace Referent

open Lookup LookupState

/-! ## What a report tells -/

/-- What a caller can tell of a reported target. -/
def Target.profile (target : Target) : Profile where
  name := target.name
  kind := target.kind
  origin := target.origin
  declared := if target.kind ∈ EntityKind.declared then some target.id else none

/-- What a resolution tells besides the ids of made entities. -/
def Resolution.told (resolution : Resolution) : String × Status × List Profile :=
  (resolution.name, resolution.status, resolution.targets.map Target.profile)

/-- What a report tells besides the ids of made entities. -/
def ProjectReport.told (report : ProjectReport) :
    ProjectId × Nat × List (String × Status × List Profile) × List Anomaly :=
  (report.project, report.entities, report.resolutions.map Resolution.told, report.anomalies)

theorem ProjectModel.Alike.told_ofBinding {first second : ProjectModel}
    (h : first.Alike second) (name : String) (binding : Binding) :
    (Resolution.ofBinding second name binding).told =
      (Resolution.ofBinding first name binding).told := by
  have htargets : ∀ model : ProjectModel,
      (Resolution.ofBinding model name binding).targets.map Target.profile =
        binding.targets.filterMap fun ref => (model.entity? ref).map Entity.profile := by
    intro model
    rw [Resolution.ofBinding, List.map_filterMap]
    apply List.filterMap_congr
    intro ref _
    rw [Option.map_map]
    rfl
  simp only [Resolution.told, htargets, h.profile]
  rfl

/-- The settings of a run over one project alone. -/
def Settings.alone (settings : Settings) (project : ProjectId) : Settings :=
  { settings with projects.value := [project] }

namespace Run

/-! ## Resolved alike -/

theorem plainBinding_alike {state other : LookupState} (h : state.model.Alike other.model)
    (name : String) : AlikeRuns Eq (plainBinding name state) (plainBinding name other) := by
  apply (ProjectModel.getEntity_alike h name).bind
  rintro ref _ after last rfl hafter
  have hkind := congrArg (Option.any fun profile : Profile => profile.kind == .unknown)
    (hafter.profile ref)
  rw [Option.any_map, Option.any_map] at hkind
  rw [get_bind_apply, get_bind_apply]
  refine ⟨?_, hafter⟩
  simp only [Entity.profile] at hkind
  rw [hkind]

theorem resolveName_alike {state other : LookupState} (h : state.model.Alike other.model)
    (mode : Mode) (name : String) :
    AlikeRuns Eq (resolveName mode name state) (resolveName mode name other) := by
  cases mode with
  | plain => exact plainBinding_alike h name
  | «virtual» => exact ProjectModel.getVirtualEntity_alike h name

theorem resolveNames_alike {state other : LookupState} (h : state.model.Alike other.model)
    (mode : Mode) (names : List String) :
    AlikeRuns Eq (names.mapM (resolveName mode) state) (names.mapM (resolveName mode) other) := by
  induction names generalizing state other with
  | nil => exact ⟨rfl, h⟩
  | cons name names ih =>
    rw [List.mapM_cons]
    apply (resolveName_alike h mode name).bind
    rintro binding _ after last rfl hafter
    apply (ih hafter).bind
    rintro bindings _ after last rfl hafter
    exact ⟨rfl, hafter⟩

/-! ## Built alike -/

/-- Stores that show a project alike give models that are alike, whoever else holds the
library. -/
theorem build_alike {mode : Mode} {project : ProjectId} {library : LibraryModel}
    {soleHolder soleHolder' : Bool} {desk desk' built built' : Desk} {model model' : ProjectModel}
    (h : desk.corpus.store.ShowsAlike desk'.corpus.store project)
    (hbuild : ProjectModel.build mode project library soleHolder desk = .ok model built)
    (hbuild' : ProjectModel.build mode project library soleHolder' desk' = .ok model' built') :
    model.Alike model' := by
  have hcontents := h.contents mode library
  cases mode with
  | plain =>
    obtain ⟨rfl, -⟩ := ProjectModel.buildPlain_eq_ok hbuild
    obtain ⟨rfl, -⟩ := ProjectModel.buildPlain_eq_ok hbuild'
    rw [hcontents]
    exact ⟨rfl, rfl, rfl, rfl, rfl, rfl⟩
  | «virtual» =>
    obtain ⟨rfl, -⟩ := ProjectModel.buildVirtual_eq_ok hbuild
    obtain ⟨rfl, -⟩ := ProjectModel.buildVirtual_eq_ok hbuild'
    rw [hcontents]
    refine ⟨?_, rfl, rfl, rfl, rfl, rfl⟩
    cases soleHolder <;> cases soleHolder' <;> rfl

theorem build_keeps_store {mode : Mode} {project : ProjectId} {library : LibraryModel}
    {soleHolder : Bool} {desk built : Desk} {model : ProjectModel}
    (hbuild : ProjectModel.build mode project library soleHolder desk = .ok model built) :
    model.project = project ∧ built.corpus.store = desk.corpus.store := by
  cases mode with
  | plain =>
    obtain ⟨rfl, hstore⟩ := ProjectModel.buildPlain_eq_ok hbuild
    exact ⟨rfl, hstore⟩
  | «virtual» =>
    obtain ⟨rfl, hstore⟩ := ProjectModel.buildVirtual_eq_ok hbuild
    exact ⟨rfl, hstore⟩

variable {mode : Mode} {names : List String} {library : LibraryModel} {project : ProjectId}
  {soleHolder soleHolder' : Bool} {before before' after after' : RunState}
  {report report' : ProjectReport}

/-- A project that succeeds has been built, and all names have been resolved in it. -/
theorem resolveProject_eq_ok
    (h : resolveProject mode names library project soleHolder before = .ok report after) :
    ∃ model desk bindings last,
      ProjectModel.build mode project library soleHolder before.desk = .ok model desk ∧
      names.mapM (resolveName mode) { corpus := desk.corpus, cache := before.cache, model } =
        .ok bindings last ∧
      report = { project, entities := last.model.size, anomalies := last.model.anomalies
                 resolutions :=
                  List.zipWith (Resolution.ofBinding last.model) names bindings } ∧
      after.desk.corpus = last.corpus := by
  unfold resolveProject at h
  split at h
  · cases h
  · rename_i model desk hbuild
    simp only at h
    split at h
    · cases h
    · rename_i bindings last hnames
      cases h
      exact ⟨model, desk, bindings, last, hbuild, hnames, rfl, rfl⟩

/-- Over stores that show a project alike, the reports of the project tell the same. -/
theorem resolveProject_told
    (h : before.desk.corpus.store.ShowsAlike before'.desk.corpus.store project)
    (hrun : resolveProject mode names library project soleHolder before = .ok report after)
    (hrun' : resolveProject mode names library project soleHolder' before' =
      .ok report' after') : report'.told = report.told := by
  obtain ⟨model, desk, bindings, last, hbuild, hnames, rfl, -⟩ := resolveProject_eq_ok hrun
  obtain ⟨model', desk', bindings', last', hbuild', hnames', rfl, -⟩ :=
    resolveProject_eq_ok hrun'
  -- Caches may hold different ids by then, and different names: neither shows in a report.
  have hstart := build_alike h hbuild hbuild'
  have hruns : AlikeRuns Eq
      (names.mapM (resolveName mode) { corpus := desk.corpus, cache := before.cache, model })
      (names.mapM (resolveName mode)
        { corpus := desk'.corpus, cache := before'.cache, model := model' }) :=
    resolveNames_alike hstart mode names
  rw [hnames, hnames'] at hruns
  obtain ⟨rfl, halike⟩ := hruns
  have hresolutions :
      (List.zipWith (Resolution.ofBinding last'.model) names bindings).map Resolution.told =
        (List.zipWith (Resolution.ofBinding last.model) names bindings).map Resolution.told := by
    rw [List.map_zipWith, List.map_zipWith]
    simp only [halike.told_ofBinding]
  have hsize : last'.model.size = last.model.size := halike.size
  simp only [ProjectReport.told, hresolutions, hsize, ProjectModel.anomalies, halike.diagnostics]

/-! ## What earlier projects leave -/

theorem leaving_plainBinding (state : LookupState) (name : String) :
    state.leaving (plainBinding name) = state.leaving (ProjectModel.getEntity name) := by
  unfold plainBinding
  rw [leaving_bind, leaving]
  cases ProjectModel.getEntity name state <;> rfl

/-- What every step of a lookup keeps, resolving names keeps. -/
theorem resolveNames_upkeep {P : LookupState → Prop} {owned : EntityId → Prop}
    (h : Upkeep P owned) (mode : Mode) (names : List String) {state last : LookupState}
    {bindings : List Binding} (hstate : P state)
    (hrun : names.mapM (resolveName mode) state = .ok bindings last) : P last := by
  induction names generalizing state bindings with
  | nil =>
    cases hrun
    exact hstate
  | cons name names ih =>
    rw [List.mapM_cons] at hrun
    obtain ⟨binding, mid, hfirst, hrest⟩ := bind_eq_ok.1 hrun
    obtain ⟨rest, last', hnames, hlast⟩ := bind_eq_ok.1 hrest
    cases hlast
    have hmid : P (state.leaving (resolveName mode name)) := by
      cases mode with
      | plain =>
        show P (state.leaving (plainBinding name))
        rw [leaving_plainBinding]
        exact h.getEntity name hstate
      | «virtual» => exact h.getVirtualEntity name hstate
    rw [leaving_of_ok hfirst] at hmid
    exact ih hmid hnames

/-- A project enriches the store under its own id. -/
theorem resolveProject_enriches {store : Store} {filed : ProjectId → Prop}
    (henriches : store.Enriches filed before.desk.corpus.store) (hproject : filed project)
    (hrun : resolveProject mode names library project soleHolder before = .ok report after) :
    store.Enriches filed after.desk.corpus.store := by
  obtain ⟨model, desk, bindings, last, hbuild, hnames, -, hcorpus⟩ := resolveProject_eq_ok hrun
  obtain ⟨rfl, hstore⟩ := build_keeps_store hbuild
  rw [hcorpus]
  rw [← hstore] at henriches
  exact (resolveNames_upkeep (enrichment_upkeep store filed) mode names
    ⟨henriches, hproject⟩ hnames).1

/-! ## The projects of a run -/

theorem asRun_eq_ok {work : EStateM ModelError RunState α} {a : α} :
    asRun work before = .ok a after ↔ work before = .ok a after := by
  unfold asRun
  cases work before <;> simp

/-- A model's failure is never that of the run. -/
theorem asRun_ne_releasedEarly (work : EStateM ModelError RunState α) (before after : RunState) :
    asRun work before ≠ .error .releasedEarly after := by
  unfold asRun
  cases work before with
  | ok a last => simp
  | error err last =>
    cases err with
    | store cause => simp [Failure.ofModel, Failure.releasedEarly]
    | cachePoisoned =>
      have hmessage : ModelError.cachePoisoned.message ≠ "library model released early" := by
        decide
      simp [Failure.ofModel, Failure.releasedEarly, hmessage]

variable {projects : List ProjectId} {held : Option LibraryModel} {reports : List ProjectReport}

/-- What the run holds after a project, if more projects follow. -/
theorem kept_eq_held (h : projects ≠ []) :
    (if projects.isEmpty then none else held) = held := by
  rw [if_neg]
  simpa using h

theorem resolveProjects_cons (project : ProjectId) (projects : List ProjectId) :
    resolveProjects mode names (some library) (project :: projects) = (do
      let kept : Option LibraryModel := if projects.isEmpty then none else some library
      let report ← asRun (resolveProject mode names library project kept.isNone)
      return report :: (← resolveProjects mode names kept projects)) := by
  rw [resolveProjects]

/-- A run that succeeds with some projects succeeds with the first of them and then with the
others. -/
theorem resolveProjects_eq_ok
    (hrun : resolveProjects mode names (some library) (project :: projects) before =
      .ok reports after) :
    ∃ soleHolder report mid rest,
      resolveProject mode names library project soleHolder before = .ok report mid ∧
      resolveProjects mode names (if projects.isEmpty then none else some library) projects mid =
        .ok rest after ∧ reports = report :: rest := by
  rw [resolveProjects_cons] at hrun
  obtain ⟨report, mid, hfirst, hrest⟩ := bind_eq_ok.1 hrun
  obtain ⟨rest, last, hreports, hlast⟩ := bind_eq_ok.1 hrest
  cases hlast
  exact ⟨_, report, mid, rest, asRun_eq_ok.1 hfirst, hreports, rfl⟩

theorem length_of_resolveProjects (hheld : projects ≠ [] → held = some library)
    (hrun : resolveProjects mode names held projects before = .ok reports after) :
    reports.length = projects.length := by
  induction projects generalizing held before reports with
  | nil =>
    cases hrun
    rfl
  | cons first projects ih =>
    obtain rfl := hheld (List.cons_ne_nil _ _)
    obtain ⟨_, report, mid, rest, -, hrest, rfl⟩ := resolveProjects_eq_ok hrun
    rw [List.length_cons, List.length_cons, ih (fun h => kept_eq_held h) hrest]

/-- Each project of a run is built on the library that the run started with, over a store that
the projects before it have enriched. -/
theorem enriched_before {store : Store} {filed : ProjectId → Prop} {i : Nat}
    (hheld : projects ≠ [] → held = some library)
    (hrun : resolveProjects mode names held projects before = .ok reports after)
    (hproject : projects[i]? = some project) (hothers : ∀ other ∈ projects.take i, filed other)
    (henriches : store.Enriches filed before.desk.corpus.store) :
    ∃ report soleHolder start last, reports[i]? = some report ∧
      resolveProject mode names library project soleHolder start = .ok report last ∧
      store.Enriches filed start.desk.corpus.store := by
  -- The projects that are passed add to the store under their own ids, up to the one in question.
  induction projects generalizing held before reports i with
  | nil => simp at hproject
  | cons first projects ih =>
    obtain rfl := hheld (List.cons_ne_nil _ _)
    obtain ⟨soleHolder, report, mid, rest, hfirst, hrest, rfl⟩ := resolveProjects_eq_ok hrun
    cases i with
    | zero =>
      cases hproject
      exact ⟨report, soleHolder, before, mid, rfl, hfirst, henriches⟩
    | succ i =>
      rw [List.take_succ_cons] at hothers
      have hmid := resolveProject_enriches henriches (hothers first List.mem_cons_self) hfirst
      obtain ⟨told, soleHolder', start, last, hnth, hresolve, hstart⟩ :=
        ih (fun h => kept_eq_held h) hrest (by simpa using hproject)
          (fun other hother => hothers other (List.mem_cons_of_mem _ hother)) hmid
      exact ⟨told, soleHolder', start, last, by simpa using hnth, hresolve, hstart⟩

/-- While projects are left, so is the library. -/
theorem resolveProjects_ne_releasedEarly (hheld : projects ≠ [] → held = some library)
    (after : RunState) :
    resolveProjects mode names held projects before ≠ .error .releasedEarly after := by
  induction projects generalizing held before with
  | nil =>
    intro hrun
    cases hrun
  | cons first projects ih =>
    obtain rfl := hheld (List.cons_ne_nil _ _)
    rw [resolveProjects_cons]
    generalize hkept : (if projects.isEmpty then none else some library) = kept
    intro hrun
    obtain hfirst | ⟨report, mid, -, hothers⟩ := bind_eq_error.1 hrun
    · exact asRun_ne_releasedEarly _ before after hfirst
    · obtain hrest | ⟨rest, last, -, hlast⟩ := bind_eq_error.1 hothers
      · exact ih (fun h => hkept ▸ kept_eq_held h) hrest
      · cases hlast

/-! ## The shared library -/

/-- What the library of a run is made of: nothing but the store. -/
def shelved (settings : Settings) (store : Store) (libraries : List ProjectId)
    (core : Option LibraryModel) : LibraryModel :=
  let start := (core.elim (LibraryModel.empty settings.mode.value)
    (LibraryModel.seeded settings.mode.value)).withRootType settings.rootType.value
  { start with draft := start.draft.fill start.mode store libraries }

variable {settings : Settings} {desk desk' : Desk} {libraries : List ProjectId}
  {core : Option LibraryModel}

theorem buildLibrary_eq_ok (h : buildLibrary settings libraries core desk = .ok library desk') :
    library = shelved settings desk.corpus.store libraries core ∧
      desk'.corpus.store = desk.corpus.store :=
  LibraryModel.loaded_eq_ok h

/-- The library that the projects of a run share, read off the store. -/
theorem sharedLibrary_eq_ok (h : sharedLibrary settings desk = .ok library desk') :
    library = shelved settings desk.corpus.store settings.libraries.value
        (settings.coreLibrary.map fun core =>
          shelved settings desk.corpus.store [core.value] none) ∧
      desk'.corpus.store = desk.corpus.store := by
  unfold sharedLibrary at h
  cases hsetting : settings.coreLibrary with
  | none =>
    rw [hsetting] at h
    exact buildLibrary_eq_ok h
  | some setting =>
    rw [hsetting] at h
    obtain ⟨core, mid, hcore, hlibrary⟩ := bind_eq_ok.1 h
    obtain ⟨built, last, hbuilt, hmid⟩ := bind_eq_ok.1 hcore
    cases hmid
    obtain ⟨rfl, hkept⟩ := buildLibrary_eq_ok hbuilt
    obtain ⟨rfl, hkept'⟩ := buildLibrary_eq_ok hlibrary
    rw [hkept] at hkept' ⊢
    exact ⟨rfl, hkept'⟩

/-- Core and libraries are loaded in the mode of the run, so in a virtual run the index by id
has all of them. -/
theorem sharedLibrary_indexed (hmode : settings.mode.value = .virtual)
    (h : sharedLibrary settings desk = .ok library desk') : library.Indexed := by
  have hshelved : ∀ libraries (core : Option LibraryModel), (∀ model ∈ core, model.Indexed) →
      (shelved settings desk.corpus.store libraries core).Indexed := by
    intro libraries core hcore
    apply Draft.fill_indexed
    rw [hmode]
    cases core with
    | none => exact LibraryModel.empty_indexed
    | some core => exact LibraryModel.seeded_indexed (hcore core rfl)
  obtain ⟨rfl, -⟩ := sharedLibrary_eq_ok h
  apply hshelved
  intro model hmodel
  obtain ⟨core, -, rfl⟩ := Option.map_eq_some_iff.1 hmodel
  exact hshelved [core.value] none (by simp)

/-! ## Whole runs -/

/-- A run that succeeds has built the library and gone through the projects with it, and reports
both. -/
theorem resolve_parts {corpus last : Access} {report : Report}
    (h : resolve settings names corpus = .ok report last) :
    ∃ library desk after, sharedLibrary settings { corpus } = .ok library desk ∧
      resolveProjects settings.mode.value names (some library) settings.projects.value
        { desk, cache := { owner := settings.unknownsProject.value } } =
          .ok report.projects after ∧
      report.library = { entities := library.size, anomalies := library.anomalies } := by
  unfold resolve at h
  split at h
  · cases h
  · simp only at h
    split at h
    · rename_i made state hreport
      cases h
      obtain ⟨library, shelf, hlibrary, hrest⟩ := bind_eq_ok.1 hreport
      obtain ⟨reports, after, hprojects, hmade⟩ := bind_eq_ok.1 hrest
      rw [get_bind_apply] at hmade
      cases hmade
      rw [asRun_eq_ok] at hlibrary
      unfold atDesk at hlibrary
      split at hlibrary
      · rename_i built desk hbuilt
        cases hlibrary
        exact ⟨library, desk, _, hbuilt, hprojects, rfl⟩
      · cases hlibrary
    · cases h

theorem resolve_eq_ok {corpus last : Access} {report : Report}
    (h : resolve settings names corpus = .ok report last) :
    ∃ cache library desk after, sharedLibrary settings { corpus } = .ok library desk ∧
      resolveProjects settings.mode.value names (some library) settings.projects.value
        { desk, cache } = .ok report.projects after := by
  obtain ⟨library, desk, after, hlibrary, hprojects, -⟩ := resolve_parts h
  exact ⟨_, library, desk, after, hlibrary, hprojects⟩

/-- The library is never given away while projects are left. -/
theorem resolve_ne_releasedEarly (settings : Settings) (names : List String)
    (corpus last : Access) : resolve settings names corpus ≠ .error .releasedEarly last := by
  unfold resolve
  split
  · simp [Failure.releasedEarly]
  · simp only
    split
    · simp
    · rename_i failure state hreport
      intro h
      cases h
      obtain hlibrary | ⟨library, mid, -, hrest⟩ := bind_eq_error.1 hreport
      · exact asRun_ne_releasedEarly _ _ _ hlibrary
      · obtain hprojects | ⟨reports, after, -, hmade⟩ := bind_eq_error.1 hrest
        · exact resolveProjects_ne_releasedEarly (fun _ => rfl) _ hprojects
        · rw [get_bind_apply] at hmade
          cases hmade

/-- Projects of a run do not influence each other: each is resolved on the library that the run
started with, with its whole index by id if the mode is virtual, and its report tells what the
report of a run over it alone tells, on any access to the same store. The library is never
missing. -/
theorem projects_independent {corpus : Access} (hstore : corpus.store.Reached)
    (hdistinct : settings.projects.value.Nodup) (names : List String) :
    (∀ last, resolve settings names corpus ≠ .error .releasedEarly last) ∧
    ∀ (report : Report) last, resolve settings names corpus = .ok report last →
      report.projects.length = settings.projects.value.length ∧
      ∃ library desk, sharedLibrary settings { corpus } = .ok library desk ∧
        (settings.mode.value = .virtual → library.Indexed) ∧
        ∀ (i : Nat) project, settings.projects.value[i]? = some project →
          ∃ found soleHolder before after, report.projects[i]? = some found ∧
            resolveProject settings.mode.value names library project soleHolder before =
              .ok found after ∧
            ∀ (corpus' : Access) (single : Report) last', corpus'.store = corpus.store →
              resolve (settings.alone project) names corpus' = .ok single last' →
              ∃ found', single.projects = [found'] ∧ found'.told = found.told := by
  refine ⟨resolve_ne_releasedEarly settings names corpus, fun report last hrun => ?_⟩
  obtain ⟨cache, library, desk, after, hlibrary, hprojects⟩ := resolve_eq_ok hrun
  obtain ⟨hshelved, hkept⟩ := sharedLibrary_eq_ok hlibrary
  refine ⟨length_of_resolveProjects (fun _ => rfl) hprojects, library, desk, hlibrary,
    fun hmode => sharedLibrary_indexed hmode hlibrary, fun i project hproject => ?_⟩
  -- Ids are distinct, so the projects before this one file nothing under its id.
  have hothers : ∀ other ∈ settings.projects.value.take i, other ≠ project := by
    rintro other hother rfl
    have hmem : other ∈ settings.projects.value.drop i := by
      apply List.mem_of_getElem? (i := 0)
      rw [List.getElem?_drop]
      exact hproject
    exact List.disjoint_take_drop hdistinct (Nat.le_refl i) hother hmem
  have hstart : corpus.store.Enriches (· ≠ project) desk.corpus.store := by
    rw [hkept]
    exact .refl _ hstore
  obtain ⟨found, soleHolder, before, mid, hfound, hresolve, henriches⟩ :=
    enriched_before (fun _ => rfl) hprojects hproject hothers hstart
  have hshows : corpus.store.ShowsAlike before.desk.corpus.store project :=
    henriches.showsAlike_of_not_filed hstore.sound fun h => h rfl
  refine ⟨found, soleHolder, before, mid, hfound, hresolve, ?_⟩
  -- Alone, the project is built over the starting store itself, on a library from the same store.
  intro corpus' single last' hsame hsingle
  obtain ⟨cache', library', desk', after', hlibrary', hprojects'⟩ := resolve_eq_ok hsingle
  obtain ⟨hshelved', hkept'⟩ := sharedLibrary_eq_ok hlibrary'
  have hlibraries : library' = library := by
    rw [hshelved', hshelved]
    simp only [hsame]
    rfl
  obtain ⟨soleHolder', found', mid', rest, hresolve', hrest, hsingles⟩ :=
    resolveProjects_eq_ok hprojects'
  cases hrest
  refine ⟨found', hsingles, ?_⟩
  rw [hlibraries] at hresolve'
  have hshows' : desk'.corpus.store.ShowsAlike before.desk.corpus.store project := by
    rw [hkept', hsame]
    exact hshows
  exact (resolveProject_told hshows' hresolve' hresolve).symm

/-- A store with a library that declares `a.Box` and two projects, whose `p.Leaf` and `q.Leaf`
extend it. -/
def forkStore : Store :=
  ((Store.ofRows [{ project := ⟨10⟩, name := "a.Box", kind := .class, id := ⟨1⟩ },
      { project := ⟨1⟩, name := "p.Leaf", kind := .class, id := ⟨2⟩ },
      { project := ⟨2⟩, name := "q.Leaf", kind := .class, id := ⟨3⟩ }]).relate
    { kind := .extends, left := ⟨2⟩, right := ⟨1⟩, project := ⟨1⟩ }).relate
    { kind := .extends, left := ⟨3⟩, right := ⟨1⟩, project := ⟨2⟩ }

/-- A virtual run over both projects of the store. -/
def forkSettings : Settings where
  rootType := { value := defaultRootType, source := .default }
  mode := { value := .virtual, source := .commandLine }
  coreLibrary := none
  unknownsProject := { value := ⟨9⟩, source := .default }
  libraries := { value := [⟨10⟩], source := .commandLine }
  projects := { value := [⟨1⟩, ⟨2⟩], source := .commandLine }

/-- The first project inserts `a.Box<q.Leaf>` before the second one asks for it, which is told
what it is told alone. -/
theorem projects_independent_of_first :
    let names := ["a.Box<q.Leaf>", "q.Leaf.size()"]
    let corpus : Access := { store := forkStore }
    forkStore.Reached ∧ forkSettings.projects.value.Nodup ∧
      ∃ report last single last', resolve forkSettings names corpus = .ok report last ∧
        resolve (forkSettings.alone ⟨2⟩) names corpus = .ok single last' ∧
        ∃ found found', report.projects[1]? = some found ∧ single.projects = [found'] ∧
          found'.told = found.told := by
  intro names corpus
  have hstore : forkStore.Reached := ((Store.reached_ofRows _).relate _).relate _
  have hdistinct : forkSettings.projects.value.Nodup := by decide
  obtain ⟨report, last, hrun⟩ :=
    exists_ok_of_succeeds (show succeeds (resolve forkSettings names corpus) by decide +kernel)
  obtain ⟨single, last', hsingle⟩ :=
    exists_ok_of_succeeds
      (show succeeds (resolve (forkSettings.alone ⟨2⟩) names corpus) by decide +kernel)
  obtain ⟨-, hreports⟩ :=
    projects_independent (show corpus.store.Reached from hstore) hdistinct names
  obtain ⟨-, library, desk, -, -, hprojects⟩ := hreports report last hrun
  obtain ⟨found, soleHolder, before, after, hfound, -, halone⟩ := hprojects 1 ⟨2⟩ rfl
  obtain ⟨found', hsingles, htold⟩ := halone corpus single last' rfl hsingle
  exact ⟨hstore, hdistinct, report, last, single, last', hrun, hsingle, found, found', hfound,
    hsingles, htold⟩

end Run

end Referent
