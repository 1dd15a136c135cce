import Eligibility.CommandLine.Run
/-!
# The command

Reads the arguments, the environment and the files that they name, and writes the report.
-/

namespace Eligibility.CommandLine

def readFile (path : String) : IO (Option ByteArray) := do
  try return some (← IO.FS.readBinFile path)
  catch _ => return none

/-- The report of a run over the files that its settings name. -/
def report (s : Settings) : IO Report := do
  let paths := [s.rule, s.context] ++ s.basket.toList
  let contents ← paths.mapM fun path => do return (path, ← readFile path)
  return s.run fun path => (contents.find? fun c => c.1 == path).bind Prod.snd

end Eligibility.CommandLine

/-- Evaluates the rule that the arguments name. -/
def main (arguments : List String) : IO UInt32 := do
  let values ← Eligibility.Settings.Name.all.mapM fun n => do return (n.envName, ← IO.getEnv n.envName)
  let environment (name : String) : Option String := (values.find? fun v => v.1 == name).bind Prod.snd
  let report ← match Eligibility.Settings.read arguments environment with
    | .ok s => Eligibility.CommandLine.report s
    | .error e => pure (.refused e)
  IO.print report.output
  IO.eprint report.errorOutput
  return report.exitCode.toUInt32
