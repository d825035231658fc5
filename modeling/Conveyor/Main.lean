import Conveyor.Program

/-!
The command line program.
-/

open Conveyor

/-- The environment's values of the variables that the program reads. -/
def environment : IO Variables := do
  let names := [LogFilter.variableName, Program.noStylesVariable, Program.forceStylesVariable] ++
    Flag.all.filterMap Flag.variableName
  let values ← names.mapM fun name => do
    pure (name, ← IO.getEnv name)
  pure fun name => (values.lookup name).join

def main (arguments : List String) : IO UInt32 := do
  match Program.run (← environment) arguments with
  | .ended exitCode output errors =>
    (← IO.getStdout).putStr output
    (← IO.getStderr).putStr errors
    pure exitCode.toUInt32
  | .withoutCluster plainLogs log =>
    for line in log do
      IO.println (if plainLogs then line.toText else line.toJson.render)
    IO.eprintln Program.withoutClusterText
    pure 1
