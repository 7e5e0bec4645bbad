import Referent.Corpus.Store

/-!
# Access to a store that may fail

Models reach the store through four calls, and each of them may fail at any time. When is fixed
by a plan: for every kind of call, which of the calls since the plan was made fail. A call that
fails shows no row and inserts none; a call that the plan lets through may still be refused by
the store itself. The counters of calls go on whatever a call came to, so what happens next is
a function of the access alone.
-/

namespace Referent

/-- The calls that models make. -/
inductive Call
  | readEntities | readRelations | insertEntity | insertRelation
  deriving DecidableEq, Repr

/-- How often each call has been made. -/
structure CallCounts where
  readEntities : Nat := 0
  readRelations : Nat := 0
  insertEntity : Nat := 0
  insertRelation : Nat := 0
  deriving DecidableEq, Repr

namespace CallCounts

/-- The count of one call. -/
def get (counts : CallCounts) : Call → Nat
  | .readEntities => counts.readEntities
  | .readRelations => counts.readRelations
  | .insertEntity => counts.insertEntity
  | .insertRelation => counts.insertRelation

/-- Count one call. -/
def bump (counts : CallCounts) : Call → CallCounts
  | .readEntities => { counts with readEntities := counts.readEntities + 1 }
  | .readRelations => { counts with readRelations := counts.readRelations + 1 }
  | .insertEntity => { counts with insertEntity := counts.insertEntity + 1 }
  | .insertRelation => { counts with insertRelation := counts.insertRelation + 1 }

end CallCounts

/-- Which calls fail: `plan call n` is about the call made after `n` others of its kind. -/
abbrev FaultPlan := Call → Nat → Bool

/-- The plan under which nothing fails. -/
def FaultPlan.none : FaultPlan := fun _ _ => false

/-- The plan that lets a number of calls of each kind through, or all of them where no number
is given. -/
def FaultPlan.budget (allowed : Call → Option Nat) : FaultPlan :=
  fun call made => (allowed call).any (· ≤ made)

/-- A store with the plan of its failures. -/
structure Access where
  store : Store := {}
  plan : FaultPlan := .none
  calls : CallCounts := {}

namespace Access

/-- Follow another plan from now on. -/
def withPlan (access : Access) (plan : FaultPlan) : Access :=
  { access with plan, calls := {} }

/-- Make a call: count it, and go on to the store unless the plan fails it. -/
def call (access : Access) (which : Call) (serve : Store → Except StoreError (α × Store)) :
    Except StoreError α × Access :=
  let counted := { access with calls := access.calls.bump which }
  if access.plan which (access.calls.get which) then (.error .poisoned, counted)
  else match serve access.store with
    | .error err => (.error err, counted)
    | .ok (answer, store) => (.ok answer, { counted with store })

/-- Read the entity rows of a project. -/
def entitiesOf (access : Access) (project : ProjectId) (kinds : List EntityKind) :
    Except StoreError (List EntityRow) × Access :=
  access.call .readEntities fun store => .ok (store.entitiesOf project kinds, store)

/-- Read the relation rows of a project. -/
def relationsOf (access : Access) (project : ProjectId) (kinds : List RelationKind) :
    Except StoreError (List RelationRow) × Access :=
  access.call .readRelations fun store => .ok (store.relationsOf project kinds, store)

/-- Insert an entity. -/
def insert (access : Access) (entry : Entry) : Except StoreError EntityId × Access :=
  access.call .insertEntity fun store => store.insert entry

/-- Insert a relation. -/
def relate (access : Access) (row : RelationRow) : Except StoreError Unit × Access :=
  access.call .insertRelation fun store => .ok ((), store.relate row)

end Access

end Referent
