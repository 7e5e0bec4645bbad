import Referent.Proofs.Ambiguities
import Referent.Proofs.Flaws
import Referent.Proofs.Independence
import Referent.Proofs.Repetition

/-!
# What a run reports of anomalies

Every model has its own record of anomalies, and models are copied, seeded and dropped in the
course of a run. What reaches the report is known from the rows and the names
(`anomalies_reported`): of the shared library the flaws of its libraries, found on top of the
core; of each project the flaws of the project, and behind them what the names met on the way.

The record of the core library is the only one that no report shows. A model that is seeded from
the core copies its entities and names, and the core is dropped before anything is reported
(`core_anomaly_unreported`).

* **Loading** records flaws (`anomalies_shelved`, `anomalies_build`).
* **One name** adds at most the anomaly of its dispatch (`anomalies_resolveName`), whether or not
  the lookup succeeds; **all names** add theirs in turn (`anomalies_resolveNames`).
-/

namespace Referent

namespace Run

open LookupState

variable {mode : Mode} {names : List String} {library : LibraryModel} {project : ProjectId}
  {soleHolder : Bool} {settings : Settings} {desk built : Desk}

/-! ## Anomalies of loading -/

theorem anomalies_shelved (settings : Settings) (store : Store) (libraries : List ProjectId)
    (core : Option LibraryModel) : (shelved settings store libraries core).anomalies =
      flaws settings.mode.value store libraries
        (LibraryModel.ground settings.mode.value core).draft.table fun _ => false := by
  have htracks : settings.mode.value = .virtual →
      (LibraryModel.ground settings.mode.value core).draft.table.typeSlots.isSome := by
    intro hmode
    rw [hmode]
    exact LibraryModel.tracks_ground core
  have hfill := Draft.toList_fill htracks store libraries
  -- A seeded model takes over no anomalies.
  have hnone : (LibraryModel.ground settings.mode.value core).draft.diagnostics.toList = [] := by
    cases core <;> rfl
  rw [hnone, List.nil_append] at hfill
  rw [← hfill]
  cases core <;> rfl

theorem anomalies_build {model : ProjectModel}
    (hbuild : ProjectModel.build mode project library soleHolder desk = .ok model built) :
    model.anomalies = flaws mode desk.corpus.store [project] {}
      fun id => (library.findById? id).isSome := by
  rw [← ProjectModel.toList_contents]
  cases mode with
  | plain =>
    obtain ⟨rfl, -⟩ := ProjectModel.buildPlain_eq_ok hbuild
    rfl
  | «virtual» =>
    obtain ⟨rfl, -⟩ := ProjectModel.buildVirtual_eq_ok hbuild
    rfl

/-! ## Anomalies of names -/

/-- The anomaly that resolving a name meets: the one of its dispatch, if it comes to that. -/
def note? (mode : Mode) (model : ProjectModel) (name : String) : Option Anomaly :=
  match mode with
  | .plain => none
  | .virtual =>
    if model.memoized? name = none ∧ model.findAny? name = none ∧
        Name.isCompoundType name = false then
      (model.dispatch name).anomaly
    else none

/-- The anomalies that are met when names are resolved one after the other. -/
def notes (mode : Mode) : LookupState → List String → List Anomaly
  | _, [] => []
  | state, name :: names =>
    (note? mode state.model name).toList ++ notes mode (state.leaving (resolveName mode name)) names

theorem anomalies_getVirtualEntity (state : LookupState) (name : String) :
    (state.leaving (ProjectModel.getVirtualEntity name)).model.anomalies =
      state.model.anomalies ++ (note? .virtual state.model name).toList := by
  have hexit := ProjectModel.getVirtualEntity_exit name state
  have hget := Lookup.diagnostics_getEntity name state
  have hnoted : (state.noting (state.model.dispatch name).anomaly).model.anomalies =
      state.model.anomalies ++ (state.model.dispatch name).anomaly.toList :=
    Diagnostics.toList_recordAny _ _
  have hunknown := Lookup.diagnostics_unknown name
    (state.noting (state.model.dispatch name).anomaly)
  unfold leaving at hget hunknown ⊢
  generalize ProjectModel.getVirtualEntity name state = result at hexit ⊢
  cases hexit with
  | remembered hmemo => simp [note?, hmemo]
  | bound hmemo hany => simp [note?, hany]
  | made _ _ hname hrun =>
    rw [hrun] at hget
    simp [note?, hname, ProjectModel.anomalies, hget]
  | unmade _ _ hname hrun =>
    rw [hrun] at hget
    simp [note?, hname, ProjectModel.anomalies, hget]
  | decided hmemo hany hname _ =>
    rw [note?, if_pos ⟨hmemo, hany, hname⟩]
    exact hnoted
  | placed hmemo hany hname _ hrun =>
    rw [hrun] at hunknown
    rw [note?, if_pos ⟨hmemo, hany, hname⟩, ← hnoted]
    exact congrArg Diagnostics.toList hunknown
  | unplaced hmemo hany hname _ hrun =>
    rw [hrun] at hunknown
    rw [note?, if_pos ⟨hmemo, hany, hname⟩, ← hnoted]
    exact congrArg Diagnostics.toList hunknown

/-- Resolving a name records what it meets, and nothing else. -/
theorem anomalies_resolveName (mode : Mode) (state : LookupState) (name : String) :
    (state.leaving (resolveName mode name)).model.anomalies =
      state.model.anomalies ++ (note? mode state.model name).toList := by
  cases mode with
  | plain =>
    show (state.leaving (plainBinding name)).model.anomalies = state.model.anomalies ++ []
    rw [leaving_plainBinding, List.append_nil]
    exact congrArg Diagnostics.toList (Lookup.diagnostics_getEntity name state)
  | «virtual» => exact anomalies_getVirtualEntity state name

theorem anomalies_resolveNames {state last : LookupState} {bindings : List Binding}
    (hrun : names.mapM (resolveName mode) state = .ok bindings last) :
    last.model.anomalies = state.model.anomalies ++ notes mode state names := by
  induction names generalizing state bindings with
  | nil =>
    cases hrun
    exact (List.append_nil _).symm
  | cons name names ih =>
    rw [List.mapM_cons] at hrun
    obtain ⟨binding, mid, hfirst, hrest⟩ := bind_eq_ok.1 hrun
    obtain ⟨rest, last', hnames, hlast⟩ := bind_eq_ok.1 hrest
    cases hlast
    have hstep := anomalies_resolveName mode state name
    rw [leaving_of_ok hfirst] at hstep
    rw [ih hnames, hstep, notes, leaving_of_ok hfirst, List.append_assoc]

/-! ## Anomalies of a run -/

/-- The core library of a run, read off the store. -/
def baseline? (settings : Settings) (store : Store) : Option LibraryModel :=
  settings.coreLibrary.map fun core => shelved settings store [core.value] none

/-- What a run that succeeds reports of anomalies. The report of the shared library has the flaws
of its libraries on top of the core, and the report of each project has the flaws of the project
on top of the shared library and then all that resolving the names met. The flaws of the core
alone are in none of them. -/
theorem anomalies_reported {corpus last : Access} {report : Report} (hstore : corpus.store.Reached)
    (hrun : resolve settings names corpus = .ok report last) :
    (∀ core, settings.coreLibrary = some core → ∃ baseline desk,
      buildLibrary settings [core.value] none { corpus } = .ok baseline desk ∧
      baseline.anomalies = flaws settings.mode.value corpus.store [core.value]
        (LibraryModel.empty settings.mode.value).draft.table fun _ => false) ∧
    ∃ library desk, sharedLibrary settings { corpus } = .ok library desk ∧
      library.anomalies = flaws settings.mode.value corpus.store settings.libraries.value
        (LibraryModel.ground settings.mode.value
          (baseline? settings corpus.store)).draft.table (fun _ => false) ∧
      report.library.anomalies = library.anomalies ∧
      report.projects.length = settings.projects.value.length ∧
      ∀ (i : Nat) project, settings.projects.value[i]? = some project →
        ∃ found soleHolder before after, report.projects[i]? = some found ∧
          corpus.store.Enriches (fun _ => True) before.desk.corpus.store ∧
          resolveProject settings.mode.value names library project soleHolder before =
            .ok found after ∧
          ∃ model built,
            ProjectModel.build settings.mode.value project library soleHolder before.desk =
              .ok model built ∧
            found.anomalies =
              flaws settings.mode.value before.desk.corpus.store [project] {}
                (fun id => (library.findById? id).isSome) ++
              notes settings.mode.value
                { corpus := built.corpus, cache := before.cache, model } names := by
  obtain ⟨library, desk, after, hlibrary, hprojects, hreport⟩ := resolve_parts hrun
  obtain ⟨hshelved, hkept⟩ := sharedLibrary_eq_ok hlibrary
  refine ⟨?_, library, desk, hlibrary, ?_, ?_, length_of_resolveProjects (fun _ => rfl) hprojects,
    ?_⟩
  · intro core hcore
    unfold sharedLibrary at hlibrary
    rw [hcore] at hlibrary
    obtain ⟨held, mid, hheld, -⟩ := bind_eq_ok.1 hlibrary
    obtain ⟨baseline, left, hbaseline, -⟩ := bind_eq_ok.1 hheld
    refine ⟨baseline, left, hbaseline, ?_⟩
    obtain ⟨rfl, -⟩ := buildLibrary_eq_ok hbaseline
    exact anomalies_shelved settings corpus.store [core.value] none
  · rw [hshelved]
    exact anomalies_shelved settings corpus.store _ _
  · rw [hreport]
  · intro i project hproject
    have hstart : corpus.store.Enriches (fun _ => True) desk.corpus.store := by
      rw [hkept]
      exact .refl _ hstore
    obtain ⟨found, soleHolder, before, mid, hfound, hresolve, henriches⟩ :=
      enriched_before (fun _ => rfl) hprojects hproject (fun _ _ => trivial) hstart
    refine ⟨found, soleHolder, before, mid, hfound, henriches, hresolve, ?_⟩
    obtain ⟨model, built, bindings, after, hbuild, hnames, rfl, -⟩ := resolveProject_eq_ok hresolve
    refine ⟨model, built, hbuild, ?_⟩
    rw [anomalies_resolveNames hnames]
    exact congrArg (· ++ _) (anomalies_build hbuild)

/-- A core library that declares `a.Twin` twice, a library that declares `b.Lib` twice and has it
extend a type that is nowhere, and a project with a row about a class that is nowhere and with a
class `p.A` that has the field `f` from two interfaces. -/
def flawedStore : Store :=
  ((((Store.ofRows
    [{ project := ⟨1⟩, name := "a.Twin", kind := .class, id := ⟨1⟩ },
     { project := ⟨1⟩, name := "a.Twin", kind := .class, id := ⟨2⟩ },
     { project := ⟨10⟩, name := "b.Lib", kind := .class, id := ⟨3⟩ },
     { project := ⟨10⟩, name := "b.Lib", kind := .class, id := ⟨4⟩ },
     { project := ⟨20⟩, name := "i.I", kind := .interface, id := ⟨5⟩ },
     { project := ⟨20⟩, name := "i.I.f", kind := .field, id := ⟨6⟩ },
     { project := ⟨20⟩, name := "i.J", kind := .interface, id := ⟨7⟩ },
     { project := ⟨20⟩, name := "i.J.f", kind := .field, id := ⟨8⟩ },
     { project := ⟨20⟩, name := "p.A", kind := .class, id := ⟨9⟩ }]).relate
    { kind := .extends, left := ⟨3⟩, right := ⟨99⟩, project := ⟨10⟩ }).relate
    { kind := .extends, left := ⟨98⟩, right := ⟨9⟩, project := ⟨20⟩ }).relate
    { kind := .implements, left := ⟨9⟩, right := ⟨5⟩, project := ⟨20⟩ }).relate
    { kind := .implements, left := ⟨9⟩, right := ⟨7⟩, project := ⟨20⟩ }

/-- A virtual run over the project of the store, with its library and its core. -/
def flawedSettings : Settings where
  rootType := { value := defaultRootType, source := .default }
  mode := { value := .virtual, source := .commandLine }
  coreLibrary := some { value := ⟨1⟩, source := .commandLine }
  unknownsProject := { value := ⟨0⟩, source := .default }
  libraries := { value := [⟨10⟩], source := .commandLine }
  projects := { value := [⟨20⟩], source := .commandLine }

/-- The anomalies that the reports of the library and of the projects show. -/
def anomaliesShown : EStateM.Result Failure Access Report → List (List Anomaly)
  | .ok report _ => report.library.anomalies :: report.projects.map (·.anomalies)
  | .error _ _ => []

theorem flawed_run_shows :
    anomaliesShown (resolve flawedSettings ["p.A.f", "p.A.f"] { store := flawedStore }) =
      [[.duplicateName "b.Lib", .missingParent ⟨99⟩],
       [.missingChild ⟨98⟩, .ambiguousField "p.A.f" ["i.I.f", "i.J.f"]]] := by
  decide +kernel

/-- The run reports the flaws of the library and of the project, and the ambiguity once. -/
theorem anomalies_reported_of_flawed_run :
    let names := ["p.A.f", "p.A.f"]
    let corpus : Access := { store := flawedStore }
    corpus.store.Reached ∧ ∃ report last, resolve flawedSettings names corpus = .ok report last ∧
      ∃ library desk, sharedLibrary flawedSettings { corpus } = .ok library desk ∧
        library.anomalies = [.duplicateName "b.Lib", .missingParent ⟨99⟩] ∧
        report.library.anomalies = library.anomalies ∧
        report.projects.map (·.anomalies) =
          [[.missingChild ⟨98⟩, .ambiguousField "p.A.f" ["i.I.f", "i.J.f"]]] := by
  intro names corpus
  have hstore : corpus.store.Reached :=
    .relate _ (.relate _ (.relate _ (.relate _ (Store.reached_ofRows _))))
  have hshown := flawed_run_shows
  have hsucceeds : succeeds (resolve flawedSettings names corpus) = true := by decide +kernel
  obtain ⟨report, last, hrun⟩ := exists_ok_of_succeeds hsucceeds
  obtain ⟨-, library, desk, hlibrary, -, hreported, -⟩ := anomalies_reported hstore hrun
  rw [hrun, anomaliesShown, List.cons.injEq] at hshown
  refine ⟨hstore, report, last, hrun, library, desk, hlibrary, ?_, hreported, hshown.2⟩
  rw [← hreported]
  exact hshown.1

/-- The core of the run has an anomaly of loading, and the run reports it nowhere. -/
theorem core_anomaly_unreported :
    let corpus : Access := { store := flawedStore }
    (∃ baseline desk, buildLibrary flawedSettings [⟨1⟩] none { corpus } = .ok baseline desk ∧
      baseline.anomalies = [.duplicateName "a.Twin"]) ∧
    ∃ report last, resolve flawedSettings ["p.A.f", "p.A.f"] corpus = .ok report last ∧
      .duplicateName "a.Twin" ∉ report.library.anomalies ∧
      ∀ project ∈ report.projects, .duplicateName "a.Twin" ∉ project.anomalies := by
  intro corpus
  have hcore : succeeds (buildLibrary flawedSettings [⟨1⟩] none { corpus }) = true := by
    decide +kernel
  have hsucceeds : succeeds (resolve flawedSettings ["p.A.f", "p.A.f"] corpus) = true := by
    decide +kernel
  obtain ⟨baseline, desk, hbaseline⟩ := exists_ok_of_succeeds hcore
  obtain ⟨report, last, hrun⟩ := exists_ok_of_succeeds hsucceeds
  have hshown := flawed_run_shows
  rw [hrun, anomaliesShown, List.cons.injEq] at hshown
  obtain ⟨hlibrary, hprojects⟩ := hshown
  refine ⟨⟨baseline, desk, hbaseline, ?_⟩, report, last, hrun, ?_, ?_⟩
  · obtain ⟨rfl, -⟩ := buildLibrary_eq_ok hbaseline
    decide +kernel
  · rw [hlibrary]
    decide
  · intro project hproject hmem
    have hanomalies := List.mem_map_of_mem (f := (·.anomalies)) hproject
    rw [hprojects, List.mem_singleton] at hanomalies
    rw [hanomalies] at hmem
    revert hmem
    decide

end Run

end Referent
