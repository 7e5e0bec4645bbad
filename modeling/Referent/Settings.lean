import Referent.Vocabulary
import Referent.Text.Split
import Referent.Json.Record
import Referent.Json.Reader

/-!
# Settings and where they come from

Six settings steer a run, and each may be set in the settings file, in the environment and on
the command line. All three are read into the same `Overrides`, so precedence is one rule
applied to each field by itself: of the sources that set it, the last one wins. The environment
is the only one that can be wrong at this point, and it is read as a whole, so a bad variable
is an error even where the command line would have overruled it.
-/

namespace Referent

/-- Where a value comes from, in order of precedence. -/
inductive Source
  | default | file | environment | commandLine
  deriving DecidableEq, Repr

namespace Source

/-- The written form of a source. -/
def name : Source → String
  | .default => "default"
  | .file => "config_file"
  | .environment => "env_var"
  | .commandLine => "cli_flag"

/-- The rank of a source: higher overrules lower. -/
def level : Source → Nat
  | .default => 0
  | .file => 1
  | .environment => 2
  | .commandLine => 3

end Source

/-- A value with its source. -/
structure Setting (α : Type) where
  value : α
  source : Source
  deriving DecidableEq, Repr

/-- What one source sets. -/
structure Overrides where
  rootType : Option String := none
  mode : Option Mode := none
  coreLibrary : Option ProjectId := none
  unknownsProject : Option ProjectId := none
  libraries : Option (List ProjectId) := none
  projects : Option (List ProjectId) := none
  deriving DecidableEq, Repr

/-- The settings of a run. -/
structure Settings where
  /-- The type whose members every array has. -/
  rootType : Setting String
  mode : Setting Mode
  /-- The project that holds the platform's own types, if there is one. -/
  coreLibrary : Option (Setting ProjectId)
  /-- The project that placeholder rows are filed under. -/
  unknownsProject : Setting ProjectId
  libraries : Setting (List ProjectId)
  /-- The projects to resolve names in. -/
  projects : Setting (List ProjectId)
  deriving DecidableEq, Repr

/-- Why there are no settings. -/
inductive SettingsError
  | invalidValue (key value : String)
  /-- The settings file could not be read. -/
  | io
  /-- The settings file is no document of settings. -/
  | json
  deriving DecidableEq, Repr

/-- The message of an error. -/
def SettingsError.message : SettingsError → String
  | .invalidValue key value => "invalid value for " ++ key ++ ": '" ++ value ++ "'"
  | .io => "IO error: ..."
  | .json => "JSON error: ..."

/-- The root type unless another is set. -/
def defaultRootType : String := "java.lang.Object"

/-! ## Reading single values -/

/-- The mode with a written form. -/
def Mode.read (text : String) : Except SettingsError Mode :=
  match Mode.ofName? text with
  | some mode => .ok mode
  | none => .error (.invalidValue "mode" text)

/-- A project id, with white space around it. -/
def ProjectId.read (key text : String) : Except SettingsError ProjectId :=
  match Text.readWord (Text.trim text.toList) with
  | some id => .ok ⟨id⟩
  | none => .error (.invalidValue key text)

/-- Project ids with commas between them. Blank items do not count, and of several bad items
the first is reported as it stands. -/
def ProjectId.readList (key text : String) : Except SettingsError (List ProjectId) :=
  ((Text.split ',' text.toList).filter fun item => !(Text.trim item).isEmpty).mapM fun item =>
    ProjectId.read key (String.ofList item)

/-! ## The three sources -/

namespace Overrides

/-- The overrides of a settings file. Every field is optional and no other field is allowed. -/
def ofDocument? (value : Json.Value) : Option Overrides := do
  let [rootType, mode, coreLibrary, unknownsProject, libraries, projects] ← value.columns?
    ["root_type", "mode", "core_library", "unknowns_project", "libraries", "projects"] true
    | none
  let project? (value : Json.Value) : Option ProjectId := value.word?.map ProjectId.mk
  return {
    rootType := ← Json.Value.optional Json.Value.text? rootType
    mode := ← Json.Value.optional (Json.Value.member? Mode.ofName?) mode
    coreLibrary := ← Json.Value.optional project? coreLibrary
    unknownsProject := ← Json.Value.optional project? unknownsProject
    libraries := ← Json.Value.optional (Json.Value.list? project?) libraries
    projects := ← Json.Value.optional (Json.Value.list? project?) projects }

/-- The overrides of a settings file, from its text. -/
def ofText (text : String) : Except SettingsError Overrides :=
  match Json.Value.ofText? text >>= ofDocument? with
  | some overrides => .ok overrides
  | none => .error .json

/-- The variables that settings come from. -/
def variableNames : List String :=
  ["TYPEGRAPH_ROOT_TYPE", "TYPEGRAPH_MODE", "TYPEGRAPH_CORE_LIBRARY",
   "TYPEGRAPH_UNKNOWNS_PROJECT", "TYPEGRAPH_LIBRARIES", "TYPEGRAPH_PROJECTS"]

/-- Read the variable `key`, if it is set. -/
def readVariable (environment : String → Option String) (key : String)
    (read : String → Except SettingsError α) : Except SettingsError (Option α) :=
  match environment key with
  | none => .ok none
  | some text => (read text).map some

/-- The overrides of the environment. The first bad variable in this order is the error. -/
def ofEnvironment (environment : String → Option String) : Except SettingsError Overrides := do
  let mode ← readVariable environment "TYPEGRAPH_MODE" Mode.read
  let coreLibrary ← readVariable environment "TYPEGRAPH_CORE_LIBRARY"
    (ProjectId.read "TYPEGRAPH_CORE_LIBRARY")
  let unknownsProject ← readVariable environment "TYPEGRAPH_UNKNOWNS_PROJECT"
    (ProjectId.read "TYPEGRAPH_UNKNOWNS_PROJECT")
  let libraries ← readVariable environment "TYPEGRAPH_LIBRARIES"
    (ProjectId.readList "TYPEGRAPH_LIBRARIES")
  let projects ← readVariable environment "TYPEGRAPH_PROJECTS"
    (ProjectId.readList "TYPEGRAPH_PROJECTS")
  return {
    rootType := environment "TYPEGRAPH_ROOT_TYPE"
    mode, coreLibrary, unknownsProject, libraries, projects }

end Overrides

/-! ## Precedence -/

/-- What the sources say of one field, from the lowest to the highest. -/
def layers (field : Overrides → Option α) (file environment commandLine : Overrides) :
    List (Setting α) :=
  [(field file).map (⟨·, .file⟩), (field environment).map (⟨·, .environment⟩),
   (field commandLine).map (⟨·, .commandLine⟩)].filterMap id

namespace Settings

/-- The settings that come out of the three sources. -/
def combine (file environment commandLine : Overrides) : Settings :=
  let last? {α : Type} (field : Overrides → Option α) : Option (Setting α) :=
    (layers field file environment commandLine).getLast?
  { rootType := (last? Overrides.rootType).getD ⟨defaultRootType, .default⟩
    mode := (last? Overrides.mode).getD ⟨.virtual, .default⟩
    coreLibrary := last? Overrides.coreLibrary
    unknownsProject := (last? Overrides.unknownsProject).getD ⟨⟨0⟩, .default⟩
    libraries := (last? Overrides.libraries).getD ⟨[], .default⟩
    projects := (last? Overrides.projects).getD ⟨[], .default⟩ }

/-- The settings of a run, from the settings file if there is one, the environment and the
command line. -/
def resolve (file : Option Overrides) (environment : String → Option String)
    (commandLine : Overrides) : Except SettingsError Settings :=
  (Overrides.ofEnvironment environment).map fun environment =>
    combine (file.getD {}) environment commandLine

end Settings

end Referent
