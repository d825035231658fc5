import Conveyor.CommandLine.Invocation
import Conveyor.Definition.Documents
import Conveyor.Text.Terminal
import Conveyor.Yaml

/-!
What the program does for a command line, up to the point where the controller needs a cluster.
-/

namespace Conveyor

/-- How a run of the program ends. -/
inductive Outcome where
  | ended (exitCode : Nat) (output errors : String)
  /-- The controller has spoken of its start and finds no cluster. -/
  | withoutCluster (plainLogs : Bool) (log : List LogLine)

namespace Program

def version : String := "0.1.0"

/-- The definition documents, each behind its separator. -/
def definitionsText : String :=
  String.join (Definition.all.map fun d => "---\n" ++ Yaml.render d.toJson ++ "\n")

/-- What the controller writes before it connects. -/
def startLines (c : Config) : List LogLine :=
  [{ severity := .debug
     target := "conveyor_common::telemetry"
     message := "telemetry initialized"
     fields := [("service", .string Command.program.name)] },
   { severity := .info
     target := "conveyor"
     message := "starting stage controller"
     fields := [("platform", .string c.platform.name),
       ("manage_namespace", .bool c.managesNamespaces), ("space_mode", .bool c.usesSpaces)] }]

def withoutClusterText : String := "Error: Failed to create Kubernetes client"

/-- Asks for texts without styles, unless its value is empty. -/
def noStylesVariable : String := "NO_COLOR"

/-- Asks for texts with styles where there is no terminal, unless its value is `0`. -/
def forceStylesVariable : String := "CLICOLOR_FORCE"

/-- A text of the program about itself as it is given out where there is no terminal. -/
def givenOut (env : Variables) (s : String) : String :=
  if (env noStylesVariable).all (·.isEmpty) && (env forceStylesVariable).any (· ≠ "0") then s
  else Text.Terminal.plain s

def perform (env : Variables) : Invocation → Outcome
  | .help c => .ended 0 (givenOut env (Help.text env c)) ""
  | .version => .ended 0 (Command.program.name ++ " " ++ version ++ "\n") ""
  | .definitions => .ended 0 definitionsText ""
  | .control settings =>
    let filter := LogFilter.ofVariable (env LogFilter.variableName)
    .withoutCluster settings.plainLogs ((startLines settings.config).filter filter.admits)

def run (env : Variables) (arguments : List String) : Outcome :=
  match Invocation.read env arguments with
  | .ok i => perform env i
  | .error e => .ended UsageError.exitCode "" (givenOut env e.message)

end Program

end Conveyor
