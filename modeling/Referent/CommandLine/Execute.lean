import Referent.CommandLine.Arguments
import Referent.Corpus.Snapshot
import Referent.Run.Resolve

/-!
# Executing a command

A command reads its settings, then the corpus, resolves the names, writes the corpus back if
asked to, and only then has something to print. The first of these that fails ends it. Files
are reached through a `Disk`, so a command is the same on whatever disk it runs.
-/

namespace Referent.CommandLine

/-- Access to files in a monad. It says whether a file could be read or written, and leaves out
why. -/
structure Disk (m : Type → Type) where
  /-- The text of a file, if it can be read. -/
  read : String → m (Option String)
  /-- Write a file; the answer says whether that worked. -/
  write : String → String → m Bool

/-- What a command leaves: its exit code and what it prints. -/
structure Outcome where
  exitCode : Nat
  output : String
  deriving DecidableEq, Repr

/-- The outcome of a command line that makes no command. What is wrong with it is not part of
the output. -/
def Outcome.usage : Outcome :=
  { exitCode := 2, output := "" }

/-- The outcome of a run. -/
def Outcome.ofResult : Except Failure Report → Outcome
  | .ok report => { exitCode := 0, output := emitted report.toDocument }
  | .error failure => { exitCode := failure.code, output := emitted failure.toDocument }

/-- The corpus in a file, from its text. -/
def openCorpus (path : String) (text : Option String) : Except Failure Store :=
  match text with
  | none => .error (.store .io (some path))
  | some text => (Store.ofText text).mapError fun cause => .store cause (some path)

/-- The settings of a command, from the text of its settings file if it names one. -/
def chooseSettings (file : Option (Option String)) (environment : String → Option String)
    (overrides : Overrides) : Except SettingsError Settings := do
  let file ← match file with
    | none => pure none
    | some none => throw .io
    | some (some text) => some <$> Overrides.ofText text
  Settings.resolve file environment overrides

variable {m : Type → Type} [Monad m]

/-- The result of a command. -/
def Arguments.run (disk : Disk m) (environment : String → Option String) (args : Arguments) :
    ExceptT Failure m Report := do
  let file ← match args.config with
    | none => pure none
    | some path => some <$> disk.read path
  let settings ← (chooseSettings file environment args.overrides).mapError Failure.ofSettings
  let store ← openCorpus args.store (← disk.read args.store)
  match Run.resolve settings args.names { store } with
  | .error failure _ => throw failure
  | .ok report corpus =>
    -- Nothing is written for a run that failed, so a corpus on disk is never half resolved.
    match args.save with
    | none => return report
    | some path =>
      if ← disk.write path corpus.store.text then return report
      else throw (.store .io (some path))

/-- The outcome of a command line. -/
def execute (disk : Disk m) (environment : String → Option String) (args : List String) :
    m Outcome :=
  match Arguments.ofArguments? args with
  | none => pure .usage
  | some args => Outcome.ofResult <$> (args.run disk environment).run

end Referent.CommandLine
