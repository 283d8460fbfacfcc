import CellFormula.CommandLine.Report

/-!
# The program

Reads the standard input if the arguments ask for a dialogue, and writes the report.
-/

open CellFormula in
def main (arguments : List String) : IO UInt32 := do
  let dialogue := (Invocation.ofArguments? arguments).any Invocation.readsInput
  let input ← if dialogue then (← IO.getStdin).readBinToEnd else pure ByteArray.empty
  let report := report arguments input
  (← IO.getStdout).putStr report.output
  (← IO.getStderr).putStr report.errors
  return report.exitCode
