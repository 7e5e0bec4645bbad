import Referent.Corpus.Snapshot
import Referent.Model.Lookup

/-!
# Workspaces

A workspace keeps library models, placeholder caches and project models under names, all over
one corpus and one stack of tasks. Project models share libraries and caches: a library is
shared as a value, since nobody changes it while others hold it, and a cache by its number,
since everybody who holds it adds to it.

What matters about a shared library is who still holds it: the workspace under a name, and
every project model built on it. The index by id is given up only by a sole holder. Two
libraries are told apart by their serial numbers, never by their names, because a name may be
given to another library while projects go on with the old one.
-/

namespace Referent

/-- A library model that may have several holders. -/
structure SharedLibrary where
  serial : Nat
  model : LibraryModel

/-- A project model with the shared things it was built on. -/
structure OpenProject where
  librarySerial : Nat
  cacheSerial : Nat
  model : ProjectModel

/-- Named models over one corpus. -/
structure Workspace where
  desk : Desk
  libraries : Std.TreeMap String SharedLibrary := {}
  /-- How many libraries there have been. -/
  serials : Nat := 0
  /-- All placeholder caches there have been. -/
  caches : Array PlaceholderCache := #[]
  /-- The cache that each name stands for. -/
  cacheNames : Std.TreeMap String Nat := {}
  projects : Std.TreeMap String OpenProject := {}

namespace Workspace

/-! ## Libraries -/

/-- Put a library model under a name, in place of the one that had it. -/
def shelve (workspace : Workspace) (name : String) (model : LibraryModel) : Workspace :=
  { workspace with
    libraries := workspace.libraries.insert name { serial := workspace.serials, model }
    serials := workspace.serials + 1 }

/-- Build a library model under a name. If the build fails the name keeps what it had. -/
def buildLibrary (workspace : Workspace) (name : String)
    (build : EStateM ModelError Desk LibraryModel) : Except ModelError LibraryModel × Workspace :=
  match build workspace.desk with
  | .ok model desk => (.ok model, { workspace with desk }.shelve name model)
  | .error err desk => (.error err, { workspace with desk })

/-- How many hold a library. -/
def holders (workspace : Workspace) (serial : Nat) : Nat :=
  workspace.libraries.values.countP (·.serial == serial) +
    workspace.projects.values.countP (·.librarySerial == serial)

/-- Give up the index of a library by id, if nobody else holds it. -/
def releaseIds (workspace : Workspace) (name : String) : Option (LibraryModel × Workspace) := do
  let shared ← workspace.libraries[name]?
  -- The workspace itself is the one holder.
  if workspace.holders shared.serial = 1 then
    let model := shared.model.releaseIds
    return (model, { workspace with
      libraries := workspace.libraries.insert name { shared with model } })
  else none

/-! ## Caches -/

/-- Put a new cache under a name. Projects on the old one keep it. -/
def openCache (workspace : Workspace) (name : String) (owner : ProjectId) : Workspace :=
  { workspace with
    caches := workspace.caches.push { owner }
    cacheNames := workspace.cacheNames.insert name workspace.caches.size }

/-- The cache under a name. -/
def cache? (workspace : Workspace) (name : String) : Option PlaceholderCache := do
  workspace.caches[← workspace.cacheNames[name]?]?

/-- Get a placeholder straight from the cache under a name. -/
def placeholder (workspace : Workspace) (cacheName name : String) :
    Option (Except ModelError Entity × Workspace) := do
  let serial ← workspace.cacheNames[cacheName]?
  let cache ← workspace.caches[serial]?
  let keep (cache : PlaceholderCache) (corpus : Access) : Workspace :=
    { workspace with caches := workspace.caches.setIfInBounds serial cache, desk.corpus := corpus }
  match PlaceholderCache.fetch name (cache, workspace.desk.corpus) with
  | .ok entity (cache, corpus) => return (.ok entity, keep cache corpus)
  | .error err (cache, corpus) => return (.error err, keep cache corpus)

/-! ## Projects -/

/-- Build a project model under a name. Handing the library over ends the workspace's own hold
on it, even if the build fails; then the name keeps the project it had. -/
def buildProject (workspace : Workspace) (name : String) (mode : Mode) (project : ProjectId)
    (library cache : String) (handOver : Bool) :
    Option (Except ModelError ProjectModel × Workspace) := do
  let shared ← workspace.libraries[library]?
  let cacheSerial ← workspace.cacheNames[cache]?
  let workspace :=
    if handOver then { workspace with libraries := workspace.libraries.erase library }
    else workspace
  -- The new project is not among the holders yet, but the one it replaces is.
  let soleHolder := workspace.holders shared.serial = 0
  match ProjectModel.build mode project shared.model soleHolder workspace.desk with
  | .error err desk => return (.error err, { workspace with desk })
  | .ok model desk =>
    let opened : OpenProject := { librarySerial := shared.serial, cacheSerial, model }
    return (.ok model, { workspace with desk, projects := workspace.projects.insert name opened })

/-- The project model under a name. -/
def project? (workspace : Workspace) (name : String) : Option ProjectModel :=
  workspace.projects[name]?.map (·.model)

/-- Give up a project model; the answer says whether there was one. -/
def dropProject (workspace : Workspace) (name : String) : Bool × Workspace :=
  (workspace.projects.contains name,
    { workspace with projects := workspace.projects.erase name })

/-- Do a lookup in the project under a name. -/
def lookup (workspace : Workspace) (name : String) (work : Lookup α) :
    Option (Except ModelError α × Workspace) := do
  let opened ← workspace.projects[name]?
  let cache ← workspace.caches[opened.cacheSerial]?
  let keep (state : LookupState) : Workspace := { workspace with
    desk.corpus := state.corpus
    caches := workspace.caches.setIfInBounds opened.cacheSerial state.cache
    projects := workspace.projects.insert name { opened with model := state.model } }
  match work { corpus := workspace.desk.corpus, cache, model := opened.model } with
  | .ok a state => return (.ok a, keep state)
  | .error err state => return (.error err, keep state)

/-- Enter an entity into the project under a name. -/
def addEntity (workspace : Workspace) (project name : String) (id : EntityId)
    (kind : EntityKind) : Option (EntityRef × Workspace) := do
  let opened ← workspace.projects[project]?
  let (ref, model) := opened.model.add name id kind
  return (ref, { workspace with
    projects := workspace.projects.insert project { opened with model } })

/-! ## The corpus itself -/

/-- Declare an entity in the store, past the plan of failures. -/
def declare (workspace : Workspace) (entry : Entry) : Except StoreError EntityId × Workspace :=
  match workspace.desk.corpus.store.insert entry with
  | .error err => (.error err, workspace)
  | .ok (id, store) => (.ok id, { workspace with desk.corpus.store := store })

/-- Relate two entities in the store, past the plan of failures. -/
def relate (workspace : Workspace) (row : RelationRow) : Workspace :=
  { workspace with desk.corpus.store := workspace.desk.corpus.store.relate row }

end Workspace

end Referent
