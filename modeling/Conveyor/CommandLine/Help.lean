import Conveyor.CommandLine.Flag

/-!
The texts that the program gives about itself, in the styles of a terminal.
-/

namespace Conveyor

/-- The value of an environment variable, if it is set. -/
abbrev Variables := String → Option String

namespace Help

open Text (Style)

/-- A line on the usage of a command, with what is said to follow its name. -/
def usageLine (c : Command) (rest : String) : String :=
  Style.heading.paint "Usage:" ++ " " ++ Style.literal.paint c.path ++ rest

/-- How a command is used in general. -/
def usage (c : Command) : String := usageLine c c.synopsis

/-- How a command is used with the flags that were used, in the order of their first use. -/
def usageWith (c : Command) (used : List Flag) : String :=
  if used.isEmpty then usage c
  else usageLine c (String.join (used.eraseDups.map fun f => " " ++ f.painted))

/-- The values that a flag may have, each as `paint` writes it. -/
def possibleValuesNote (paint : String → String) (values : List String) : String :=
  "[possible values: " ++ String.intercalate ", " (values.map paint) ++ "]"

/-- What is said of a flag, with its variable, its standard value and its possible values. -/
def flagText (env : Variables) (f : Flag) : String :=
  let variableNotes := f.variableName.toList.map fun v =>
    "[env: " ++ v ++ "=" ++ (env v).getD "" ++ "]"
  let standardNotes := f.standardText.toList.map fun v => "[default: " ++ v ++ "]"
  let valueNotes :=
    if f.takesValue && !f.possibleValues.isEmpty then [possibleValuesNote id f.possibleValues]
    else []
  String.intercalate " " (f.about :: variableNotes ++ standardNotes ++ valueNotes)

/-- A flag in front of what is said of it; flags without a letter leave room for one. -/
def flagHead (f : Flag) : String :=
  match f.letter with
  | some c => "  " ++ Style.literal.paint ("-" ++ String.singleton c) ++ ", " ++ f.painted
  | none => "      " ++ f.painted

/-- The named commands, with blanks behind the shorter names. -/
def commandLines : List String :=
  let width := (Command.named.map (·.name.length)).foldl max 0
  Command.named.map fun c =>
    "  " ++ Style.literal.paint c.name ++
      String.ofList (List.replicate (width + 2 - c.name.length) ' ') ++ c.about

def titled (title : String) (lines : List String) : List String :=
  "" :: Style.heading.paint (title ++ ":") :: lines

/-- How far the text of a flag is moved in when it stands below the flag. -/
def margin : List Char := List.replicate 10 ' '

/-- A text with the margin before every one of its lines. -/
def belowFlag (s : String) : String :=
  String.ofList (margin ++ s.toList.flatMap fun c => if c = '\n' then c :: margin else [c])

/-- What follows the usage line. -/
def parts (env : Variables) : Command → List String
  | .program =>
    titled "Commands" commandLines ++
      titled "Options" (Flag.all.flatMap fun f => [flagHead f, belowFlag (flagText env f)])
  | .controller =>
    titled "Options" ((Flag.of .controller).map fun f => flagHead f ++ "  " ++ flagText env f)
  | .help => titled "Arguments" ["  [COMMAND]...  Print help for the subcommand(s)"]

def text (env : Variables) (c : Command) : String :=
  String.join (([c.about, "", usage c] ++ parts env c).map (· ++ "\n"))

end Help

end Conveyor
