import Referent.Settings
import Referent.Model.Dispatch
import Referent.Model.Loading

/-!
# Library models

A library model holds the declarations of libraries for all projects to share. It grows by
`load`: all declarations of the given libraries come first and only then their inheritance, so
a row of one library finds its supertype in another whatever the order. A model may start from
a finished one, and then copies its entities and names but not its anomalies.

Lookup never writes: an exact name denotes its entity, and a member that a type inherits is
found by dispatch over library types alone.
-/

namespace Referent

/-- Declarations of libraries, with their inheritance if the mode is virtual. -/
structure LibraryModel where
  mode : Mode
  /-- The type whose members arrays have. -/
  rootType : String := defaultRootType
  draft : Draft := {}

namespace LibraryModel

/-! ## Building -/

/-- A table that is ready for loading in a mode. -/
def prepare (mode : Mode) (table : Table) : Table :=
  match mode with
  | .plain => table
  | .virtual => table.trackIds

/-- A model without declarations. -/
def empty (mode : Mode) : LibraryModel :=
  { mode, draft.table := prepare mode {} }

/-- A model with the declarations of another one and its root type. -/
def seeded (mode : Mode) (core : LibraryModel) : LibraryModel :=
  { mode, rootType := core.rootType, draft.table := prepare mode core.draft.table }

/-- Start again from the contents of `core`. The anomalies recorded so far stay. -/
def withCore (model core : LibraryModel) : LibraryModel :=
  { seeded model.mode core with draft.diagnostics := model.draft.diagnostics }

/-- Have arrays take their members from another type. -/
def withRootType (model : LibraryModel) (rootType : String) : LibraryModel :=
  { model with rootType }

/-- The passes of loading libraries. Supertypes are looked for in the draft only. -/
def passes (mode : Mode) (libraries : List ProjectId) : Loading Unit := do
  libraries.forM fun library => Loading.declarations library .library
  -- Only now is every class-like entity of the list in the index by id.
  if mode = .virtual then
    libraries.forM fun library => Loading.inheritance library .library fun _ => none

/-- Load libraries. On failure the model keeps what was loaded. -/
def load (libraries : List ProjectId) : EStateM ModelError (LibraryModel × Desk) Unit :=
  fun (model, desk) =>
    let work := Loading.closingTasks <|
      Loading.task ("Loading " ++ toString libraries.length ++ " libraries") none <|
        passes model.mode libraries
    match work { desk, draft := model.draft } with
    | .ok _ bench => .ok () ({ model with draft := bench.draft }, bench.desk)
    | .error err bench => .error err ({ model with draft := bench.draft }, bench.desk)

/-- The model with more libraries loaded into it. -/
def loaded (model : LibraryModel) (libraries : List ProjectId) :
    EStateM ModelError Desk LibraryModel := fun desk =>
  match load libraries (model, desk) with
  | .ok _ (model, desk) => .ok model desk
  | .error err (_, desk) => .error err desk

/-- The model of some libraries, on top of `core` if there is one. -/
def build (mode : Mode) (libraries : List ProjectId) (core : Option LibraryModel) :
    EStateM ModelError Desk LibraryModel :=
  (core.elim (empty mode) (seeded mode)).loaded libraries

/-- Give up the index by id, which only the wiring of projects needs. -/
def releaseIds (model : LibraryModel) : LibraryModel :=
  { model with draft.table := model.draft.table.releaseIds }

/-! ## Lookup -/

/-- The number of entities. -/
def size (model : LibraryModel) : Nat :=
  model.draft.table.size

/-- The anomalies of loading. -/
def anomalies (model : LibraryModel) : List Anomaly :=
  model.draft.diagnostics.toList

/-- Whether the index by id is still there. -/
def tracksIds (model : LibraryModel) : Bool :=
  model.draft.table.typeSlots.isSome

/-- The entity with exactly this name. -/
def find? (model : LibraryModel) (name : String) : Option EntityRef :=
  (model.draft.table.slot? name).map .library

/-- The class-like entity with this id, while ids are tracked. -/
def findById? (model : LibraryModel) (id : EntityId) : Option EntityRef :=
  (model.draft.table.typeSlot? id).map .library

/-- The entity behind a reference. A library sees no project. -/
def entity? (model : LibraryModel) : EntityRef → Option Entity
  | .library slot => model.draft.table.arena[slot]?
  | .project _ => none

/-- The hierarchy of library types. -/
def hierarchy (model : LibraryModel) : Hierarchy where
  library := model.draft.table.arena
  project := #[]
  declared? name := (model.draft.table.declaredSlot? name).map .library

/-- Resolve a reference among library types. -/
def dispatch (model : LibraryModel) (name : String) : Dispatch :=
  match model.find? name with
  | some ref => { binding := some (.resolved ref) }
  | none =>
    match Name.MemberRef.ofName? name with
    | none => {}
    | some ref =>
      if ref.isConstructorOrInitializer then {}
      else if Name.isArray ref.receiver then
        { binding := (model.find? (Name.memberName model.rootType ref.member)).map .resolved }
      else
        match model.find? ref.receiver with
        | none => {}
        | some receiver => model.hierarchy.resolve receiver name ref

end LibraryModel

end Referent
