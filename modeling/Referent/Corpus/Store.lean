import Std.Data.TreeSet
import Referent.Corpus.Row

/-!
# The store

The store keeps both tables in insertion order and hands out entity ids. Streamed reads ask
for one project at a time, so each table has an index from projects to the positions of their
rows; every insertion goes through `push` or `relate`, which extend table and index together.

Ids start at 1 and the next id is one more than the largest ever present. The last 32-bit id
would leave no next id, so no row may have it, and a full store refuses insertions rather than
wrap around.
-/

namespace Referent

/-- Why the store refuses. -/
inductive StoreError
  /-- The store is out of order and answers nothing. -/
  | poisoned
  | schemaMismatch (found expected : UInt32)
  | duplicateId (id : EntityId)
  | idsExhausted
  /-- A file could not be read or written. -/
  | io
  /-- A text is no snapshot. -/
  | json
  deriving DecidableEq, Repr

/-- The message of an error. What a file or a text is refused for is not spelled out. -/
def StoreError.message : StoreError → String
  | .poisoned => "store lock poisoned"
  | .schemaMismatch found expected =>
    "snapshot schema version " ++ toString found.toNat ++ " is not supported (expected " ++
      toString expected.toNat ++ ")"
  | .duplicateId id => "duplicate entity id " ++ id.display ++ " in snapshot"
  | .idsExhausted => "entity id space exhausted"
  | .io => "IO error: ..."
  | .json => "JSON error: ..."

/-- Row positions by project, in insertion order. -/
abbrev RowIndex := Std.TreeMap ProjectId (Array Nat)

namespace RowIndex

/-- The positions of a project's rows. -/
def rows (index : RowIndex) (project : ProjectId) : Array Nat :=
  index.getD project #[]

/-- Enter a position for a project. -/
def enter (index : RowIndex) (project : ProjectId) (position : Nat) : RowIndex :=
  index.alter project fun rows => some ((rows.getD #[]).push position)

end RowIndex

/-- The tables of a corpus. -/
structure Store where
  entities : Array EntityRow := #[]
  relations : Array RelationRow := #[]
  entityIndex : RowIndex := {}
  relationIndex : RowIndex := {}
  /-- The ids of all entity rows. -/
  ids : Std.TreeSet EntityId := {}
  nextId : UInt32 := 1

namespace Store

/-- The last 32-bit word. -/
def lastWord : UInt32 := 4294967295

/-! ## Insertion -/

/-- Add an entity row that has its id already. -/
def push (store : Store) (row : EntityRow) : Except StoreError Store :=
  if row.id.val = lastWord then .error .idsExhausted
  else if store.ids.contains row.id then .error (.duplicateId row.id)
  else .ok { store with
    entities := store.entities.push row
    entityIndex := store.entityIndex.enter row.project store.entities.size
    ids := store.ids.insert row.id
    nextId := max store.nextId (row.id.val + 1) }

/-- Add an entity under the next id. -/
def insert (store : Store) (entry : Entry) : Except StoreError (EntityId × Store) :=
  let id : EntityId := ⟨store.nextId⟩
  (store.push { entry with id }).map fun store => (id, store)

/-- Add a relation row. -/
def relate (store : Store) (row : RelationRow) : Store :=
  { store with
    relations := store.relations.push row
    relationIndex := store.relationIndex.enter row.project store.relations.size }

/-! ## Streamed reads -/

/-- The entity rows of a project with one of the given kinds, in insertion order. -/
def entitiesOf (store : Store) (project : ProjectId) (kinds : List EntityKind) :
    List EntityRow :=
  ((store.entityIndex.rows project).toList.filterMap (store.entities[·]?)).filter
    (kinds.contains ·.kind)

/-- The relation rows of a project with one of the given kinds, in insertion order. -/
def relationsOf (store : Store) (project : ProjectId) (kinds : List RelationKind) :
    List RelationRow :=
  ((store.relationIndex.rows project).toList.filterMap (store.relations[·]?)).filter
    (kinds.contains ·.kind)

/-! ## Queries over all projects -/

/-- The entity rows with exactly this name. -/
def named (store : Store) (name : String) : List EntityRow :=
  store.entities.toList.filter (·.name == name)

/-- The entity row with this id. -/
def row? (store : Store) (id : EntityId) : Option EntityRow :=
  store.entities.find? (·.id == id)

/-- The relations with this left end. -/
def relationsFrom (store : Store) (left : EntityId) : List RelationRow :=
  store.relations.toList.filter (·.left == left)

end Store

end Referent
