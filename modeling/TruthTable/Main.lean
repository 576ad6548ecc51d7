import TruthTable.CommandLine

/-!
# The program

Writes the outcome of the command line to the two streams.
-/

/-- Runs the command line. -/
def main (arguments : List String) : IO UInt32 := do
  let outcome := TruthTable.CommandLine.run .plain arguments
  IO.print outcome.output
  IO.eprint outcome.errors
  return outcome.code
