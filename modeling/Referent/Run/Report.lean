import Referent.Run.Failure
import Referent.Model.Lookup

/-!
# Reports

A report says what every requested name came to in every project, in the order of the request,
together with the anomalies met. Lists of anomalies are left out of the document when they are
empty.
-/

namespace Referent

/-- One thing that a name denotes. -/
structure Target where
  name : String
  kind : EntityKind
  id : EntityId
  origin : Origin
  deriving DecidableEq, Repr

/-- What a requested name came to. -/
structure Resolution where
  /-- The name as requested. -/
  name : String
  status : Status
  targets : List Target
  deriving DecidableEq, Repr

/-- What the shared library holds. -/
structure LibraryReport where
  entities : Nat
  anomalies : List Anomaly
  deriving DecidableEq, Repr

/-- What the names came to in one project. -/
structure ProjectReport where
  project : ProjectId
  /-- The slots of the project's own arena after all names were resolved. -/
  entities : Nat
  resolutions : List Resolution
  anomalies : List Anomaly
  deriving DecidableEq, Repr

/-- The result of a run. -/
structure Report where
  mode : Mode
  library : LibraryReport
  projects : List ProjectReport
  /-- How many names needed a placeholder. -/
  unknowns : Nat
  deriving DecidableEq, Repr

/-- What is reported of an entity. -/
def Target.ofEntity (entity : Entity) : Target :=
  { name := entity.name, kind := entity.kind, id := entity.id, origin := entity.origin }

/-- What is reported of a name with its binding in a model. -/
def Resolution.ofBinding (model : ProjectModel) (name : String) (binding : Binding) :
    Resolution where
  name := name
  status := binding.status
  targets := binding.targets.filterMap fun ref => (model.entity? ref).map Target.ofEntity

/-! ## Documents -/

/-- The document of a target. -/
def Target.toDocument (target : Target) : Json.Value :=
  .object [("fqn", .string target.name), ("kind", .string target.kind.name),
    ("entity_id", .word target.id.val), ("origin", .string target.origin.name)]

/-- The document of a resolution. -/
def Resolution.toDocument (resolution : Resolution) : Json.Value :=
  .object [("fqn", .string resolution.name), ("status", .string resolution.status.name),
    ("targets", .array (resolution.targets.map Target.toDocument))]

/-- The field that lists anomalies, if there are any. -/
def anomalyField (anomalies : List Anomaly) : List (String × Json.Value) :=
  if anomalies.isEmpty then []
  else [("anomalies", .array (anomalies.map Anomaly.toDocument))]

/-- The document of a library report. -/
def LibraryReport.toDocument (report : LibraryReport) : Json.Value :=
  .object (("entities", .nat report.entities) :: anomalyField report.anomalies)

/-- The document of a project report. -/
def ProjectReport.toDocument (report : ProjectReport) : Json.Value :=
  .object <|
    [("project_id", .word report.project.val), ("entities", .nat report.entities),
     ("resolutions", .array (report.resolutions.map Resolution.toDocument))] ++
    anomalyField report.anomalies

/-- The document of a report. -/
def Report.toDocument (report : Report) : Json.Value :=
  .object [("status", .string "ok"), ("schema_version", .string reportVersion),
    ("mode", .string report.mode.name), ("library", report.library.toDocument),
    ("projects", .array (report.projects.map ProjectReport.toDocument)),
    ("unknowns", .nat report.unknowns)]

end Referent
