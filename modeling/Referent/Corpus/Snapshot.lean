import Referent.Corpus.Store
import Referent.Json.Record
import Referent.Json.Reader
import Referent.Json.Printer

/-!
# Snapshots

A snapshot is all rows of a store with the version of their schema; its page is the file that
carries a corpus from one run to the next. Fields of the file are written in a fixed order and
optional ones only when they hold something; on reading, fields that are not known are passed
over.

A whole text is read before its version is looked at, and then rows enter one by one, so of
several faults the first row's is reported.
-/

namespace Referent

open Json (Value)

/-! ## Rows as documents -/

/-- The document of an entity row. -/
def EntityRow.toDocument (row : EntityRow) : Value :=
  .object <|
    [("entity_id", .word row.id.val), ("project_id", .word row.project.val),
     ("fqn", .string row.name), ("kind", .string row.kind.name)] ++
    Value.field? "params" .string row.params ++
    Value.field? "raw_params" .string row.rawParams ++
    Value.field? "dimensions" .word row.dimensions

/-- The entity row of a document. -/
def EntityRow.ofDocument? (value : Value) : Option EntityRow := do
  let [id, project, name, kind, params, rawParams, dimensions] ← value.columns?
    ["entity_id", "project_id", "fqn", "kind", "params", "raw_params", "dimensions"] false
    | none
  return {
    id := ⟨← Value.required Value.word? id⟩
    project := ⟨← Value.required Value.word? project⟩
    name := ← Value.required Value.text? name
    kind := ← Value.required (Value.member? EntityKind.ofName?) kind
    params := ← Value.optional Value.text? params
    rawParams := ← Value.optional Value.text? rawParams
    dimensions := ← Value.optional Value.word? dimensions }

/-- The document of a relation row. -/
def RelationRow.toDocument (row : RelationRow) : Value :=
  .object [("kind", .string row.kind.name), ("origin", .string row.origin.name),
    ("lhs", .word row.left.val), ("rhs", .word row.right.val),
    ("project_id", .word row.project.val)]

/-- The relation row of a document. -/
def RelationRow.ofDocument? (value : Value) : Option RelationRow := do
  let [kind, origin, left, right, project] ← value.columns?
    ["kind", "origin", "lhs", "rhs", "project_id"] false
    | none
  return {
    kind := ← Value.required (Value.member? RelationKind.ofName?) kind
    origin := ← Value.required (Value.member? Origin.ofName?) origin
    left := ⟨← Value.required Value.word? left⟩
    right := ⟨← Value.required Value.word? right⟩
    project := ⟨← Value.required Value.word? project⟩ }

/-! ## Snapshots -/

/-- Every row of a store. -/
structure Snapshot where
  version : UInt32
  entities : List EntityRow := []
  relations : List RelationRow := []
  deriving DecidableEq, Repr

namespace Snapshot

/-- The version of the schema that this library writes and reads. -/
def supportedVersion : UInt32 := 1

/-- The document of a snapshot. -/
def toDocument (snapshot : Snapshot) : Value :=
  .object [("schema_version", .word snapshot.version),
    ("entities", .array (snapshot.entities.map EntityRow.toDocument)),
    ("relations", .array (snapshot.relations.map RelationRow.toDocument))]

/-- The snapshot of a document. -/
def ofDocument? (value : Value) : Option Snapshot := do
  let [version, entities, relations] ← value.columns?
    ["schema_version", "entities", "relations"] false
    | none
  return {
    version := ← Value.required Value.word? version
    entities := ← Value.withDefault [] (Value.list? EntityRow.ofDocument?) entities
    relations := ← Value.withDefault [] (Value.list? RelationRow.ofDocument?) relations }

/-- The text of a snapshot. -/
def text (snapshot : Snapshot) : String :=
  snapshot.toDocument.page

end Snapshot

namespace Store

/-- Every row, in order. -/
def snapshot (store : Store) : Snapshot where
  version := Snapshot.supportedVersion
  entities := store.entities.toList
  relations := store.relations.toList

/-- The store with the rows of a snapshot. -/
def ofSnapshot (snapshot : Snapshot) : Except StoreError Store :=
  if snapshot.version ≠ Snapshot.supportedVersion then
    .error (.schemaMismatch snapshot.version Snapshot.supportedVersion)
  else do
    let store ← snapshot.entities.foldlM push {}
    return snapshot.relations.foldl relate store

/-- The store that a document holds. -/
def ofDocument (value : Value) : Except StoreError Store :=
  match Snapshot.ofDocument? value with
  | none => .error .json
  | some snapshot => ofSnapshot snapshot

/-- The store that a text holds. -/
def ofText (text : String) : Except StoreError Store :=
  match Value.ofText? text with
  | none => .error .json
  | some value => ofDocument value

/-- The text that holds a store. -/
def text (store : Store) : String :=
  store.snapshot.text

end Store

end Referent
