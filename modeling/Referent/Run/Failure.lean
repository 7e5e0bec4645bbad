import Referent.Json.Printer
import Referent.Model.Loading
import Referent.Settings

/-!
# Failures of a run

Whatever goes wrong in a run falls into one of three classes, and the class decides the exit
code. A failure is reported like a result, as a document on the output.
-/

namespace Referent

/-- Why a run has no result. -/
inductive Failure
  /-- The caller asked for something that makes no sense. -/
  | invalidArguments (detail : String)
  /-- The store could not be read, written or relied on; the path says which file, if one was
  involved. -/
  | store (cause : StoreError) (path : Option String)
  /-- The library is out of order. -/
  | internal (detail : String)
  deriving DecidableEq, Repr

namespace Failure

/-- A failure to find the settings. -/
def ofSettings (err : SettingsError) : Failure :=
  .invalidArguments err.message

/-- A failure of a model. -/
def ofModel : ModelError → Failure
  | .store cause => .store cause none
  | .cachePoisoned => .internal ModelError.cachePoisoned.message

/-- A project is left whose library has been given away. -/
def releasedEarly : Failure :=
  .internal "library model released early"

/-- The exit code of a failure. -/
def code : Failure → Nat
  | invalidArguments _ => 2
  | store .. => 3
  | internal _ => 10

/-- The message of a failure. -/
def message : Failure → String
  | invalidArguments detail => "invalid arguments: " ++ detail
  | store cause _ => "store error: " ++ cause.message
  | internal detail => "internal error: " ++ detail

/-- The file that a failure is about. -/
def path? : Failure → Option String
  | store _ path => path
  | _ => none

end Failure

/-- The version of the documents that runs put out. -/
def reportVersion : String := "1"

/-- The document of a failure. -/
def Failure.toDocument (failure : Failure) : Json.Value :=
  .object [("status", .string "error"), ("schema_version", .string reportVersion),
    ("error", .object <|
      [("code", .nat failure.code), ("message", .string failure.message)] ++
      Json.Value.field? "details" (fun path => .object [("path", .string path)]) failure.path?)]

/-- What is put out: a document on a page, with a line end behind it. -/
def emitted (document : Json.Value) : String :=
  document.page ++ "\n"

end Referent
