import Referent.CommandLine.Execute

/-!
# The command

The command on the real disk and in the real environment.
-/

namespace Referent.CommandLine

/-- The files of this machine. -/
def machineDisk : Disk IO where
  read path := do
    try return some (← IO.FS.readFile path)
    catch _ => return none
  write path text := do
    try
      IO.FS.writeFile path text
      return true
    catch _ => return false

/-- The variables that are set, of those that settings come from. -/
def machineEnvironment : IO (String → Option String) := do
  let values ← Overrides.variableNames.filterMapM fun key => do
    return (← IO.getEnv key).map fun value => (key, value)
  return fun key => values.lookup key

end Referent.CommandLine

open Referent.CommandLine in
/-- Resolve names in a corpus. -/
def main (args : List String) : IO UInt32 := do
  let outcome ← execute machineDisk (← machineEnvironment) args
  if outcome = .usage then
    IO.eprintln "expected --store FILE, other options with their values, and at least one name"
  IO.print outcome.output
  (← IO.getStdout).flush
  return UInt32.ofNat outcome.exitCode
