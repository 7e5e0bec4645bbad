import Referent.Vocabulary
import Referent.Json.Value

/-!
# Anomalies

A malformed corpus never stops a model: it keeps the first of two entities, skips an edge or
reports an ambiguity, and records an anomaly. The record is append-only.
-/

namespace Referent

/-- Something a model saw in its corpus and went past. -/
inductive Anomaly
  /-- A second entity claims a name that is taken. -/
  | duplicateName (name : String)
  /-- The left end of an inheritance edge is not among the types that were loaded. -/
  | missingChild (id : EntityId)
  /-- The right end of an inheritance edge is found nowhere. -/
  | missingParent (id : EntityId)
  /-- Several classes above the receiver declare the method. -/
  | multipleClassCandidates (name : String) (candidates : List String)
  /-- Several types above the receiver declare the field. -/
  | ambiguousField (name : String) (candidates : List String)
  deriving DecidableEq, Repr

namespace Anomaly

/-- How an anomaly is shown. -/
def message : Anomaly → String
  | duplicateName name => "Duplicate FQN: " ++ name
  | missingChild id => "Missing child from map: " ++ id.display
  | missingParent id => "Missing parent from map: " ++ id.display
  | multipleClassCandidates name candidates =>
    "Multiple class methods for: " ++ name ++ " (" ++ ", ".intercalate candidates ++ ")"
  | ambiguousField name candidates =>
    "Virtual field resolution should never be ambiguous: " ++ name ++ " (" ++
      ", ".intercalate candidates ++ ")"

/-- The document of an anomaly. -/
def toDocument (anomaly : Anomaly) : Json.Value :=
  let tagged (tag : String) (fields : List (String × Json.Value)) : Json.Value :=
    .object (("anomaly", .string tag) :: fields)
  match anomaly with
  | duplicateName name => tagged "duplicate_fqn" [("fqn", .string name)]
  | missingChild id => tagged "missing_child" [("entity_id", .word id.val)]
  | missingParent id => tagged "missing_parent" [("entity_id", .word id.val)]
  | multipleClassCandidates name candidates =>
    tagged "multiple_class_candidates"
      [("fqn", .string name), ("candidates", .array (candidates.map .string))]
  | ambiguousField name candidates =>
    tagged "ambiguous_field"
      [("fqn", .string name), ("candidates", .array (candidates.map .string))]

end Anomaly

/-- The anomalies seen so far, in order. -/
structure Diagnostics where
  anomalies : Array Anomaly := #[]
  deriving DecidableEq, Repr

namespace Diagnostics

/-- Record an anomaly. -/
def record (diagnostics : Diagnostics) (anomaly : Anomaly) : Diagnostics :=
  { anomalies := diagnostics.anomalies.push anomaly }

/-- Record an anomaly, if there is one. -/
def recordAny (diagnostics : Diagnostics) (anomaly : Option Anomaly) : Diagnostics :=
  anomaly.elim diagnostics diagnostics.record

/-- All records, in order. -/
def toList (diagnostics : Diagnostics) : List Anomaly :=
  diagnostics.anomalies.toList

/-- The number of records. -/
def size (diagnostics : Diagnostics) : Nat :=
  diagnostics.anomalies.size

/-- Take every record out. -/
def drain (diagnostics : Diagnostics) : List Anomaly × Diagnostics :=
  (diagnostics.toList, {})

end Diagnostics

end Referent
