import Referent.Run.Report

/-!
# Resolving names in a corpus

A run builds the core library, the shared library on top of it, and then one project after the
other, each of which resolves all requested names. The projects share the library and the
cache of placeholders and write into one store.

The run holds the library for the projects to come and shares it with each of them in turn. The
last project is handed the run's own hold, so it is the only one left with the library and the
one that gives up the library's index.
-/

namespace Referent

/-- What the projects of a run share. -/
structure RunState where
  desk : Desk
  cache : PlaceholderCache

namespace Run

/-- The library model of some libraries under the settings of a run. -/
def buildLibrary (settings : Settings) (libraries : List ProjectId) (core : Option LibraryModel) :
    EStateM ModelError Desk LibraryModel :=
  let start := core.elim (LibraryModel.empty settings.mode.value)
    (LibraryModel.seeded settings.mode.value)
  (start.withRootType settings.rootType.value).loaded libraries

/-- A plain lookup as a binding: a placeholder is no resolution. -/
def plainBinding (name : String) : Lookup Binding := do
  let found ← ProjectModel.getEntity name
  let isPlaceholder := ((← get).model.entity? found).any (·.kind == .unknown)
  return if isPlaceholder then .unresolved found else .resolved found

/-- What a name denotes in a mode. -/
def resolveName (mode : Mode) (name : String) : Lookup Binding :=
  match mode with
  | .plain => plainBinding name
  | .virtual => ProjectModel.getVirtualEntity name

/-- Build a project and resolve all names in it. -/
def resolveProject (mode : Mode) (names : List String) (library : LibraryModel)
    (project : ProjectId) (soleHolder : Bool) : EStateM ModelError RunState ProjectReport :=
  fun state =>
    match ProjectModel.build mode project library soleHolder state.desk with
    | .error err desk => .error err { state with desk }
    | .ok model desk =>
      let start : LookupState := { corpus := desk.corpus, cache := state.cache, model }
      match names.mapM (resolveName mode) start with
      | .error err after =>
        -- The model is lost, but its rows and placeholders are in the corpus for good.
        .error err { desk := { desk with corpus := after.corpus }, cache := after.cache }
      | .ok bindings after =>
        let model := after.model
        .ok
          { project
            entities := model.size
            resolutions := List.zipWith (Resolution.ofBinding model) names bindings
            anomalies := model.anomalies }
          { desk := { desk with corpus := after.corpus }, cache := after.cache }

/-- Work at the desk of a run. -/
def atDesk (work : EStateM ModelError Desk α) : EStateM ModelError RunState α := fun state =>
  match work state.desk with
  | .ok a desk => .ok a { state with desk }
  | .error err desk => .error err { state with desk }

/-- Work of models as a part of a run. -/
def asRun (work : EStateM ModelError RunState α) : EStateM Failure RunState α := fun state =>
  match work state with
  | .ok a state => .ok a state
  | .error err state => .error (.ofModel err) state

/-- Resolve all names in all projects, one project after the other, while the library is held. -/
def resolveProjects (mode : Mode) (names : List String) :
    Option LibraryModel → List ProjectId → EStateM Failure RunState (List ProjectReport)
  | _, [] => return []
  | held, project :: projects => do
    let kept := if projects.isEmpty then none else held
    match held with
    | none => throw .releasedEarly
    | some library =>
      let report ← asRun (resolveProject mode names library project kept.isNone)
      return report :: (← resolveProjects mode names kept projects)

/-- The library that the projects of a run share, on top of the core library if there is one. -/
def sharedLibrary (settings : Settings) : EStateM ModelError Desk LibraryModel := do
  let core ← match settings.coreLibrary with
    | none => pure none
    | some core => some <$> buildLibrary settings [core.value] none
  buildLibrary settings settings.libraries.value core

/-- Build the libraries and resolve all names in all projects. -/
def report (settings : Settings) (names : List String) : EStateM Failure RunState Report := do
  let mode := settings.mode.value
  let library ← asRun (atDesk (sharedLibrary settings))
  let projects ← resolveProjects mode names (some library) settings.projects.value
  return {
    mode
    library := { entities := library.size, anomalies := library.anomalies }
    projects
    unknowns := (← get).cache.size }

/-- Resolve names in a corpus. The rows inserted before a failure are in the corpus. -/
def resolve (settings : Settings) (names : List String) : EStateM Failure Access Report :=
  fun corpus =>
    if settings.projects.value.isEmpty then
      .error (.invalidArguments
        "no projects to resolve (use --project or the `projects` config key)") corpus
    else
      let cache : PlaceholderCache := { owner := settings.unknownsProject.value }
      match report settings names { desk := { corpus }, cache } with
      | .ok report state => .ok report state.desk.corpus
      | .error failure state => .error failure state.desk.corpus

end Run

end Referent
