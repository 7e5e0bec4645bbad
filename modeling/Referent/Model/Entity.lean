import Referent.Vocabulary

/-!
# Entities of a model

A model keeps its entities in an arena and everything else, parent links included, refers to
them by slot. Hierarchies with cycles are therefore ordinary values. A project model sees two
arenas, its own and that of the library it rests on, so a reference says which one it means.

Slots are natural numbers. An arena is taken to hold fewer than 2³² entities, so that each of its
slots is a 32-bit number too.
-/

namespace Referent

/-- A slot of one of the arenas a model can see. -/
inductive EntityRef
  /-- In the library's arena. -/
  | library (slot : Nat)
  /-- In the project's own arena. -/
  | project (slot : Nat)
  deriving DecidableEq, Repr, Inhabited

/-- How a reference is shown. -/
def EntityRef.display : EntityRef → String
  | library slot => "lib#" ++ toString slot
  | project slot => "proj#" ++ toString slot

/-- A declared, synthesized or placeholder entity. -/
structure Entity where
  /-- The qualified name, without any signature. -/
  name : String
  kind : EntityKind
  id : EntityId
  origin : Origin
  /-- Direct supertypes, each once, in the order they were wired. -/
  parents : List EntityRef := []
  deriving DecidableEq, Repr

/-- Add a direct supertype. Adding one again changes nothing. -/
def Entity.addParent (entity : Entity) (parent : EntityRef) : Entity :=
  if parent ∈ entity.parents then entity
  else { entity with parents := entity.parents ++ [parent] }

end Referent
