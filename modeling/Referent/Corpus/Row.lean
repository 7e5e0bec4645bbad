import Referent.Vocabulary

/-!
# Rows of the corpus

A corpus is two tables. An entity row says what stands under a name in a project; a relation
row ties two entities together. What an entity row says before it has an id is an `Entry`: the
store hands out the id.
-/

namespace Referent

/-- What is known of an entity apart from its id. -/
structure Entry where
  project : ProjectId
  /-- The qualified name. -/
  name : String
  kind : EntityKind
  /-- The signature of the declaration: `(int)` for a method, `<T+java.lang.Object>` for a
  generic type. -/
  params : Option String := none
  /-- The erased signature, if one was recorded. -/
  rawParams : Option String := none
  /-- The dimensions of an array type. -/
  dimensions : Option UInt32 := none
  deriving DecidableEq, Repr

/-- A row of the entity table. -/
structure EntityRow extends Entry where
  id : EntityId
  deriving DecidableEq, Repr

/-- A row of the relation table: `left` is related to `right`. -/
structure RelationRow where
  kind : RelationKind
  /-- The origin of the right end. -/
  origin : Origin := .internal
  left : EntityId
  right : EntityId
  project : ProjectId
  deriving DecidableEq, Repr

end Referent
