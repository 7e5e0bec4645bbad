import Referent.Model.Library
import Referent.Model.Placeholder

/-!
# Project models

A project model lays one project's declarations over a library model. Its table holds what the
project declares, the compound types made from names so far, and the slots of placeholders; a
placeholder is under no name in the table, so a name that only has a placeholder is still free.

Building a virtual model needs two indexes by id, the project's own and the library's. The
first is given up at once. The library's is given up only by a model that nobody else shares
the library with, since models still to be built need it.
-/

namespace Referent

/-- One project's view of all types. -/
structure ProjectModel where
  project : ProjectId
  library : LibraryModel
  table : Table := {}
  /-- The slot of the placeholder for each name that has needed one. -/
  placeholders : Std.TreeMap String EntityRef := {}
  /-- The results of dispatch so far. -/
  bindings : Std.TreeMap String Binding := {}
  diagnostics : Diagnostics := {}

namespace ProjectModel

/-! ## Building -/

/-- Run the passes of a build and make a model of the draft. -/
def assemble (project : ProjectId) (library : LibraryModel) (start : Table) (title : String)
    (passes : Loading Unit) : EStateM ModelError Desk ProjectModel := fun desk =>
  let work := Loading.closingTasks <|
    Loading.task (title ++ " for " ++ project.display) none passes
  match work { desk, draft.table := start } with
  | .ok _ bench =>
    let draft := bench.draft
    .ok { project, library, table := draft.table, diagnostics := draft.diagnostics } bench.desk
  | .error err bench => .error err bench.desk

/-- Load the declarations of a project. -/
def buildPlain (project : ProjectId) (library : LibraryModel) :
    EStateM ModelError Desk ProjectModel :=
  assemble project library {} "Building type model" <|
    Loading.declarations project .internal

/-- Load the declarations of a project and their inheritance. The sole holder of the library
gives up the library's index by id. -/
def buildVirtual (project : ProjectId) (library : LibraryModel) (soleHolder : Bool) :
    EStateM ModelError Desk ProjectModel := do
  let model ← assemble project library ({} : Table).trackIds "Building virtual type model" do
    Loading.declarations project .internal
    Loading.inheritance project .project library.findById?
  return { model with
    table := model.table.releaseIds
    library := if soleHolder then library.releaseIds else library }

/-- Build the model of a mode. -/
def build (mode : Mode) (project : ProjectId) (library : LibraryModel) (soleHolder : Bool) :
    EStateM ModelError Desk ProjectModel :=
  match mode with
  | .plain => buildPlain project library
  | .virtual => buildVirtual project library soleHolder

/-! ## What a model holds -/

/-- The number of slots in the project's own arena. -/
def size (model : ProjectModel) : Nat :=
  model.table.size

/-- The anomalies of loading and of lookups so far. -/
def anomalies (model : ProjectModel) : List Anomaly :=
  model.diagnostics.toList

/-- The entity behind a reference into either arena. -/
def entity? (model : ProjectModel) : EntityRef → Option Entity
  | .project slot => model.table.arena[slot]?
  | .library slot => model.library.entity? (.library slot)

/-- A line about the size of a model. -/
def summary (model : ProjectModel) : String :=
  "ProjectTypeModel \x7b project_id: ProjectId(" ++ toString model.project.val.toNat ++
    "), entities: " ++ toString model.size ++
    ", placeholders: " ++ toString model.placeholders.size ++
    ", bindings: " ++ toString model.bindings.size ++
    ", anomalies: " ++ toString model.diagnostics.size ++ " \x7d"

/-- The memoized result of dispatch for a name. -/
def memoized? (model : ProjectModel) (name : String) : Option Binding :=
  model.bindings[name]?

/-- The entity that the project's table has under a name. -/
def find? (model : ProjectModel) (name : String) : Option EntityRef :=
  (model.table.slot? name).map .project

/-- The entity with exactly this name in the project or else in the library. -/
def findAny? (model : ProjectModel) (name : String) : Option EntityRef :=
  model.find? name <|> model.library.find? name

/-- The declaration of a name in the project or else in the library; synthesized types do not
count. -/
def declared? (model : ProjectModel) (name : String) : Option EntityRef :=
  (model.table.declaredSlot? name).map .project <|> model.library.find? name

/-- The hierarchy of project and library types. -/
def hierarchy (model : ProjectModel) : Hierarchy where
  library := model.library.draft.table.arena
  project := model.table.arena
  declared? := model.declared?

/-- Enter an entity that came into being after the model was built. It gets a slot in any case,
but a name that is taken keeps its first entity, and the second claim is an anomaly. -/
def enter (model : ProjectModel) (name : String) (entity : Entity) : EntityRef × ProjectModel :=
  let draft : Draft := { table := model.table, diagnostics := model.diagnostics }
  let draft := draft.add entity [name]
  (.project model.table.size,
    { model with table := draft.table, diagnostics := draft.diagnostics })

/-- Enter an entity by hand. -/
def add (model : ProjectModel) (name : String) (id : EntityId) (kind : EntityKind) :
    EntityRef × ProjectModel :=
  model.enter name { name, kind, id, origin := .internal }

/-- Resolve a reference that is neither an exact name nor a compound type. -/
def dispatch (model : ProjectModel) (name : String) : Dispatch :=
  match Name.MemberRef.ofName? name with
  | none => {}
  | some ref =>
    if ref.isConstructorOrInitializer then {}
    else if Name.isArray ref.receiver then
      { binding :=
          (model.declared? (Name.memberName model.library.rootType ref.member)).map .resolved }
    else
      match model.find? ref.receiver with
      | none => model.library.dispatch name
      | some receiver => model.hierarchy.resolve receiver name ref

end ProjectModel

end Referent
