import Referent.Corpus.Access
import Referent.Progress
import Referent.Model.Table

/-!
# Loading a project into a draft

Libraries and projects are loaded the same way, in two passes: the declarations of a project
become entities, then its inheritance rows become parent links. They differ in which arena the
links point into and where a parent outside the draft is looked up, and those are parameters.

The wiring pass is split in two. `Table.edge` decides what one row means, link or anomaly, and
reads only indexes, which wiring does not touch; `Draft.wire` applies the decisions in order.

A failing read ends the pass it belongs to and leaves what earlier passes built. Every pass is
a task; `closingTasks` puts the stack of tasks back when a build fails.
-/

namespace Referent

/-- Why a model could not answer or be built. -/
inductive ModelError
  | store (cause : StoreError)
  /-- The cache of placeholders is out of order. -/
  | cachePoisoned
  deriving DecidableEq, Repr

/-- The message of an error. -/
def ModelError.message : ModelError → String
  | .store cause => "store error: " ++ cause.message
  | .cachePoisoned => "unknown entity cache lock poisoned"

/-- What a build works with: the corpus it reads and the tasks it reports on. -/
structure Desk where
  corpus : Access
  progress : Progress := {}

/-- A draft being loaded. -/
structure Workbench where
  desk : Desk
  draft : Draft

/-- A step of loading. What it did before it failed stays done. -/
abbrev Loading := EStateM ModelError Workbench

namespace Loading

/-! ## The corpus and the tasks -/

/-- Ask the corpus. -/
def ask (question : Access → Except StoreError α × Access) : Loading α := fun bench =>
  let (answer, corpus) := question bench.desk.corpus
  let bench := { bench with desk.corpus := corpus }
  match answer with
  | .ok a => .ok a bench
  | .error cause => .error (.store cause) bench

/-- Change the tasks. -/
def report (change : Progress → Progress) : Loading Unit :=
  modify fun bench => { bench with desk.progress := change bench.desk.progress }

/-- Work within a task. A failure leaves the task open. -/
def task (name : String) (unit : Option String) (work : Loading α) : Loading α := do
  report (·.start name unit)
  let result ← work
  report (·.finish.2)
  return result

/-- Work, and on failure close every task that the work left open. -/
def closingTasks (work : Loading α) : Loading α := fun bench =>
  match work bench with
  | .ok a bench' => .ok a bench'
  | .error err bench' =>
    let progress := bench'.desk.progress.abortTo bench.desk.progress.depth
    .error err { bench' with desk.progress := progress }

end Loading

/-! ## Declarations -/

/-- Load the declarations of a project. -/
def Loading.declarations (project : ProjectId) (origin : Origin) : Loading Unit :=
  Loading.task ("Loading entities of " ++ project.display) (some "entities loaded") do
    let rows ← Loading.ask (·.entitiesOf project EntityKind.declared)
    modify fun bench => { bench with draft := rows.foldl (Draft.addRow origin) bench.draft }
    Loading.report (·.count rows.length)

/-! ## Inheritance -/

/-- The base type of each parameterized type, from the rows that say so. Of several rows for
one type the last counts. -/
def baseTypes (rows : List RelationRow) : Std.TreeMap EntityId EntityId :=
  rows.foldl (fun bases row => bases.insert row.left row.right) {}

/-- What an inheritance row means: a supertype for the entity in a slot, or an anomaly. A
parameterized supertype stands for its base type, and a supertype outside the draft is left to
`elsewhere`. -/
def Table.edge (table : Table) (toRef : Nat → EntityRef)
    (elsewhere : EntityId → Option EntityRef) (bases : Std.TreeMap EntityId EntityId)
    (row : RelationRow) : Except Anomaly (Nat × EntityRef) :=
  let right := bases.getD row.right row.right
  match table.typeSlot? row.left with
  | none => .error (.missingChild row.left)
  | some child =>
    match (table.typeSlot? right).map toRef <|> elsewhere right with
    | none => .error (.missingParent right)
    | some parent => .ok (child, parent)

namespace Draft

/-- Apply what one row means. -/
def applyEdge (draft : Draft) : Except Anomaly (Nat × EntityRef) → Draft
  | .error anomaly => { draft with diagnostics := draft.diagnostics.record anomaly }
  | .ok (child, parent) => { draft with table := draft.table.addParent child parent }

/-- Apply what inheritance rows mean, in order. -/
def wire (draft : Draft) (edges : List (Except Anomaly (Nat × EntityRef))) : Draft :=
  edges.foldl applyEdge draft

end Draft

/-- Load the inheritance of a project whose declarations are in the draft. -/
def Loading.inheritance (project : ProjectId) (toRef : Nat → EntityRef)
    (elsewhere : EntityId → Option EntityRef) : Loading Unit :=
  Loading.task ("Loading structure of " ++ project.display) none do
    let bases ← Loading.task "Loading has_base_type relations" (some "relations loaded") do
      let rows ← Loading.ask (·.relationsOf project [.hasBaseType])
      Loading.report (·.count rows.length)
      return baseTypes rows
    Loading.task "Loading extends/implements relations" (some "relations loaded") do
      let rows ← Loading.ask (·.relationsOf project RelationKind.inheritance)
      let edges := rows.map ((← get).draft.table.edge toRef elsewhere bases)
      modify fun bench => { bench with draft := bench.draft.wire edges }
      -- A row that only led to an anomaly loaded nothing.
      Loading.report (·.count (edges.countP (·.isOk)))

end Referent
