import Referent.Settings
import Referent.Text.Ends

/-!
# Command line arguments

Arguments are read in two steps. `Given.ofArguments?` sorts them into options with their values
and names, which is a matter of dashes and equals signs alone; `Arguments.ofGiven?` then asks
of each option how often it may be given and whether its values make sense. Either step refuses
the whole command line or accepts it.
-/

namespace Referent.CommandLine

/-- The options. -/
inductive Flag
  | store | config | mode | rootType | coreLibrary | unknownsProject
  | library | project | save | logLevel
  deriving DecidableEq, Repr

namespace Flag

/-- Every option. -/
def all : List Flag :=
  [.store, .config, .mode, .rootType, .coreLibrary, .unknownsProject, .library, .project, .save,
   .logLevel]

/-- An option as it is written, without its dashes. -/
def name : Flag → String
  | .store => "store"
  | .config => "config"
  | .mode => "mode"
  | .rootType => "root-type"
  | .coreLibrary => "core-library"
  | .unknownsProject => "unknowns-project"
  | .library => "library"
  | .project => "project"
  | .save => "save"
  | .logLevel => "log-level"

/-- The option with a written form. -/
def ofName? (s : String) : Option Flag :=
  all.find? (·.name == s)

end Flag

/-! ## Options and names -/

/-- Options with their values, and names, each in order. -/
structure Given where
  options : List (Flag × String) := []
  names : List String := []
  deriving Repr

/-- The option that an argument beginning with two dashes is, with the value behind its equals
sign. -/
def readOption? (body : List Char) : Option (Flag × Option String) :=
  let name := body.takeWhile (· != '=')
  let attached := match body.dropWhile (· != '=') with
    | [] => none
    | _ :: value => some (String.ofList value)
  (Flag.ofName? (String.ofList name)).map fun flag => (flag, attached)

/-- Whether an argument begins with a dash; a dash alone is an ordinary word. -/
def isDashed (arg : String) : Bool :=
  arg.startsWith "-" && arg != "-"

/-- Sort arguments into options and names. After two dashes alone everything is a name. A value
that is an argument of its own must not begin with a dash. -/
def Given.ofArguments? : List String → Option Given
  | [] => some {}
  | arg :: args =>
    if arg = "--" then some { names := args }
    else if !isDashed arg then
      (ofArguments? args).map fun given => { given with names := arg :: given.names }
    else
      match Text.dropFront? "--".toList arg.toList >>= readOption? with
      | none => none
      | some (flag, some value) =>
        (ofArguments? args).map fun given =>
          { given with options := (flag, value) :: given.options }
      | some (flag, none) =>
        -- The value is the next argument, whatever it looks like apart from its dash.
        match args with
        | [] => none
        | value :: args =>
          if isDashed value then none
          else (ofArguments? args).map fun given =>
            { given with options := (flag, value) :: given.options }

namespace Given

/-- All values of an option. -/
def values (given : Given) (flag : Flag) : List String :=
  given.options.filterMap fun (f, value) => if f = flag then some value else none

/-- The value of an option that may be given once, as `read?` reads it. -/
def once? (given : Given) (flag : Flag) (read? : String → Option α) : Option (Option α) :=
  match given.values flag with
  | [] => some none
  | [value] => (read? value).map some
  | _ => none

/-- The project ids that an option lists, with commas or by being repeated; no list at all if
it is not given. -/
def projects? (given : Given) (flag : Flag) : Option (Option (List ProjectId)) :=
  let items := (given.values flag).flatMap fun value => Text.split ',' value.toList
  (items.mapM fun item => (Text.readSigned item).map ProjectId.mk).map fun ids =>
    if ids.isEmpty then none else some ids

end Given

/-! ## The command -/

/-- What the command line asks for. -/
structure Arguments where
  /-- The file that holds the corpus. -/
  store : String
  /-- The settings file. -/
  config : Option String
  /-- The file to write the corpus to when all names are resolved. -/
  save : Option String
  overrides : Overrides
  /-- The names to resolve. -/
  names : List String
  deriving Repr

/-- A file, which has to have a name. -/
def readPath? (value : String) : Option String :=
  if value.isEmpty then none else some value

/-- A project id, without white space. -/
def readProject? (value : String) : Option ProjectId :=
  (Text.readSigned value.toList).map ProjectId.mk

/-- The words for how much is logged. -/
def logLevels : List String :=
  ["trace", "debug", "info", "warn", "error"]

/-- A level of logging. Nothing is logged, so any level is as good. -/
def readLogLevel? (value : String) : Option Unit :=
  if logLevels.contains value then some () else none

/-- The command that options and names make, if they make one. -/
def Arguments.ofGiven? (given : Given) : Option Arguments := do
  let store ← (← given.once? .store readPath?)
  let config ← given.once? .config readPath?
  let save ← given.once? .save readPath?
  let rootType ← given.once? .rootType some
  let mode ← given.once? .mode Mode.ofName?
  let coreLibrary ← given.once? .coreLibrary readProject?
  let unknownsProject ← given.once? .unknownsProject readProject?
  let libraries ← given.projects? .library
  let projects ← given.projects? .project
  let _ ← given.once? .logLevel readLogLevel?
  if given.names.isEmpty then none
  else
    let overrides := { rootType, mode, coreLibrary, unknownsProject, libraries, projects }
    return { store, config, save, overrides, names := given.names }

/-- The command that arguments make, if they make one. -/
def Arguments.ofArguments? (args : List String) : Option Arguments :=
  Given.ofArguments? args >>= Arguments.ofGiven?

end Referent.CommandLine
