import Referent.Anomaly
import Referent.Model.Hierarchy

/-!
# Bindings and how members are chosen

What a reference can denote is a `Binding`. For a member that the receiver inherits, the
candidates are the distinct declarations that the walk over its supertypes finds. A method of a
class wins over any number of methods of interfaces; fields make no such difference. Several
candidates are all returned, and where the language rules several out, an anomaly says so.
-/

namespace Referent

/-- What a reference denotes. -/
inductive Binding
  /-- One declaration. -/
  | resolved (target : EntityRef)
  /-- No declaration; the target is a placeholder. -/
  | unresolved (target : EntityRef)
  /-- Several declarations, any of which may be meant. -/
  | ambiguous (targets : List EntityRef)
  deriving DecidableEq, Repr

/-- How a reference came out. -/
inductive Status
  | resolved | unresolved | ambiguous
  deriving DecidableEq, Repr

/-- The written form of a status. -/
def Status.name : Status → String
  | .resolved => "resolved"
  | .unresolved => "unresolved"
  | .ambiguous => "ambiguous"

namespace Binding

/-- How the reference came out. -/
def status : Binding → Status
  | resolved _ => .resolved
  | unresolved _ => .unresolved
  | ambiguous _ => .ambiguous

/-- Everything the reference can denote. -/
def targets : Binding → List EntityRef
  | resolved target | unresolved target => [target]
  | ambiguous targets => targets

/-- The one thing the reference denotes, unless it is ambiguous. -/
def single? : Binding → Option EntityRef
  | resolved target | unresolved target => some target
  | ambiguous _ => none

/-- Whether the reference denotes one declaration. -/
def isResolved : Binding → Bool
  | resolved _ => true
  | _ => false

/-- Whether the reference denotes several declarations. -/
def isAmbiguous : Binding → Bool
  | ambiguous _ => true
  | _ => false

/-- The binding to the candidates, if there are any. -/
def ofCandidates : List EntityRef → Option Binding
  | [] => none
  | [candidate] => some (.resolved candidate)
  | candidates => some (.ambiguous candidates)

end Binding

/-- What became of a reference before placeholders come in, and the anomaly met on the way. -/
structure Dispatch where
  binding : Option Binding := none
  anomaly : Option Anomaly := none
  deriving DecidableEq, Repr

namespace Hierarchy

/-- The names of the entities behind references. -/
def namesOf (hierarchy : Hierarchy) (refs : List EntityRef) : List String :=
  refs.filterMap fun ref => (hierarchy.entity? ref).map (·.name)

/-- The distinct declarations among findings, in order. -/
def declarations (findings : List Finding) : List EntityRef :=
  (findings.map (·.declaration)).eraseDups

/-- Resolve a method that the receiver inherits. Several class candidates cannot be under
single inheritance of classes, so they are an anomaly. -/
def resolveMethod (hierarchy : Hierarchy) (receiver : EntityRef) (name member : String) :
    Dispatch :=
  let (inInterfaces, inClasses) :=
    (hierarchy.findings receiver member).partition (·.kind == .interface)
  let classes := declarations inClasses
  let interfaces := declarations inInterfaces
  { binding := Binding.ofCandidates (if classes.isEmpty then interfaces else classes)
    anomaly :=
      if 1 < classes.length then
        some (.multipleClassCandidates name (hierarchy.namesOf classes))
      else none }

/-- Resolve a field that the receiver inherits. Several candidates are an anomaly. -/
def resolveField (hierarchy : Hierarchy) (receiver : EntityRef) (name member : String) :
    Dispatch :=
  let fields := declarations (hierarchy.findings receiver member)
  { binding := Binding.ofCandidates fields
    anomaly :=
      if 1 < fields.length then some (.ambiguousField name (hierarchy.namesOf fields)) else none }

/-- Resolve the member that `name` refers to in a receiver that the hierarchy knows. -/
def resolve (hierarchy : Hierarchy) (receiver : EntityRef) (name : String)
    (ref : Name.MemberRef) : Dispatch :=
  if ref.isMethod then hierarchy.resolveMethod receiver name ref.member
  else hierarchy.resolveField receiver name ref.member

end Hierarchy

end Referent
