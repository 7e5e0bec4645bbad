/-!
# Open tasks

Building a model is a sequence of long passes, and each pass is a task on a stack. Items count
for the innermost task alone. A failed build closes every task it opened by going back to the
depth it started from.
-/

namespace Referent

/-- An open task. -/
structure Task where
  name : String
  /-- What the items of the task are called, if it counts any. -/
  unit : Option String := none
  count : Nat := 0
  deriving DecidableEq, Repr

/-- The open tasks, innermost first. -/
structure Progress where
  tasks : List Task := []
  deriving DecidableEq, Repr

namespace Progress

/-- The number of open tasks. -/
def depth (progress : Progress) : Nat :=
  progress.tasks.length

/-- Open a task. -/
def start (progress : Progress) (name : String) (unit : Option String := none) : Progress :=
  { tasks := { name, unit } :: progress.tasks }

/-- Count items for the innermost task. -/
def count (progress : Progress) (items : Nat := 1) : Progress :=
  match progress.tasks with
  | [] => progress
  | task :: outer => { tasks := { task with count := task.count + items } :: outer }

/-- Close the innermost task; the number is its item count, and 0 if no task is open. -/
def finish (progress : Progress) : Nat × Progress :=
  match progress.tasks with
  | [] => (0, progress)
  | task :: outer => (task.count, { tasks := outer })

/-- Close tasks, innermost first, until no more than `depth` are open. -/
def abortTo (progress : Progress) (depth : Nat) : Progress :=
  { tasks := progress.tasks.drop (progress.tasks.length - depth) }

end Progress

end Referent
