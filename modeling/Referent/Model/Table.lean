import Referent.Anomaly
import Referent.Corpus.Row
import Referent.Model.Entity

/-!
# Tables of named entities

A table is an arena with an index from names to slots. The first entity to claim a name keeps
it; a second claim is an anomaly and changes nothing. One entity may hold several names, and
none: a declaration with a signature claims its name with the signature attached, and leaves
the bare name to its siblings.

While inheritance is being wired a table also maps the ids of class-like entities to their
slots. A draft is a table together with the anomalies seen in filling it.

The next slot is the number of entities so far. It fits into 32 bits as long as arenas hold fewer
than 2³² entities, which all of this takes for granted.
-/

namespace Referent

/-- The names that an entity row claims. -/
def EntityRow.claims (row : EntityRow) : List String :=
  match row.params with
  | none => [row.name]
  | some params => (row.rawParams.map (row.name ++ ·)).toList ++ [row.name ++ params]

/-- An arena and its indexes. -/
structure Table where
  arena : Array Entity := #[]
  /-- The slot that each bound name denotes. -/
  slots : Std.TreeMap String Nat := {}
  /-- The slot of each class-like entity by id, while ids are tracked. -/
  typeSlots : Option (Std.TreeMap EntityId Nat) := none

namespace Table

/-- The number of slots. -/
def size (table : Table) : Nat :=
  table.arena.size

/-! ## Lookup -/

/-- The slot that a name denotes. -/
def slot? (table : Table) (name : String) : Option Nat :=
  table.slots[name]?

/-- The slot that a name denotes, unless it holds a synthesized type. -/
def declaredSlot? (table : Table) (name : String) : Option Nat :=
  (table.slot? name).filter fun slot => table.arena[slot]?.any (!·.kind.isSynthesized)

/-- The slot of the class-like entity with this id, while ids are tracked. -/
def typeSlot? (table : Table) (id : EntityId) : Option Nat :=
  table.typeSlots.bind (·[id]?)

/-! ## Growth -/

/-- Track the ids of class-like entities from now on. What is tracked already stays. -/
def trackIds (table : Table) : Table :=
  { table with typeSlots := some (table.typeSlots.getD {}) }

/-- Give up the index by id. -/
def releaseIds (table : Table) : Table :=
  { table with typeSlots := none }

/-- Put an entity into the next slot, under no name. -/
def allocate (table : Table) (entity : Entity) : Table :=
  { table with arena := table.arena.push entity }

/-- Let a name denote a slot. -/
def bind (table : Table) (name : String) (slot : Nat) : Table :=
  { table with slots := table.slots.insert name slot }

/-- Let a name denote nothing. The slot keeps its entity. -/
def forget (table : Table) (name : String) : Table :=
  { table with slots := table.slots.erase name }

/-- Enter a class-like entity into the index by id, if there is one. -/
def track (table : Table) (id : EntityId) (slot : Nat) : Table :=
  { table with typeSlots := table.typeSlots.map (·.insert id slot) }

/-- Add a supertype to the entity in a slot. -/
def addParent (table : Table) (slot : Nat) (parent : EntityRef) : Table :=
  { table with arena := table.arena.modify slot (·.addParent parent) }

end Table

/-- A table with the anomalies seen in filling it. -/
structure Draft where
  table : Table := {}
  diagnostics : Diagnostics := {}

namespace Draft

/-- Claim a name for a slot. -/
def claim (draft : Draft) (slot : Nat) (name : String) : Draft :=
  match draft.table.slot? name with
  | some _ => { draft with diagnostics := draft.diagnostics.record (.duplicateName name) }
  | none => { draft with table := draft.table.bind name slot }

/-- Put an entity into the next slot and claim its names. -/
def add (draft : Draft) (entity : Entity) (names : List String) : Draft :=
  let slot := draft.table.size
  names.foldl (claim · slot) { draft with table := draft.table.allocate entity }

/-- Add the entity of a row. Of two class-like rows with one id the index keeps the later. -/
def addRow (origin : Origin) (draft : Draft) (row : EntityRow) : Draft :=
  let slot := draft.table.size
  let draft := draft.add { name := row.name, kind := row.kind, id := row.id, origin } row.claims
  if row.kind.isClassLike then { draft with table := draft.table.track row.id slot } else draft

end Draft

end Referent
