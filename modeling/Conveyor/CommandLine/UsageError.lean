import Conveyor.CommandLine.Help
import Conveyor.Text.Similarity

/-!
Command lines that the program cannot follow.
-/

namespace Conveyor

inductive UsageError where
  | valueMissing (flag : Flag)
  | repeated (flag : Flag)
  /-- A value other than the possible ones. -/
  | impossibleValue (flag : Flag) (value : String)
  | badPlatform (value : String) (cause : Error)
  /-- A value attached to a flag that takes none, after other flags were used. -/
  | unexpectedValue (command : Command) (flag : Flag) (value : String) (used : List Flag)
  /-- An argument that the command has no place for, with the flag it may be a slip for. -/
  | unexpectedArgument (command : Command) (argument : String) (similar : Option Flag)
    (used : List Flag)
  /-- A name that should be one of a command's commands, with the names it may be a slip for. -/
  | unknownCommand (command : Command) (name : String) (similar : List String)
  /-- A command after the dashes that end the flags. -/
  | commandAfterDashes (name : String)

namespace UsageError

open Text (Style)

def exitCode : Nat := 2

def missingText (f : Flag) : String :=
  "a value is required for '" ++ Style.invalid.paint f.shown ++ "' but none was supplied"

/-- A value that a flag cannot have. -/
def badValue (f : Flag) (v : String) : String :=
  "value '" ++ Style.invalid.paint v ++ "' for '" ++ Style.literal.paint f.shown ++ "'"

/-- What is wrong. An empty value that is not possible counts as none. -/
def description : UsageError → String
  | valueMissing f => missingText f
  | repeated f =>
    "the argument '" ++ Style.invalid.paint f.shown ++ "' cannot be used multiple times"
  | impossibleValue f v => if v.isEmpty then missingText f else "invalid " ++ badValue f v
  | badPlatform v cause => "invalid " ++ badValue .platform v ++ ": " ++ cause.message
  | unexpectedValue _ f v _ => "unexpected " ++ badValue f v ++ " found; no more were expected"
  | unexpectedArgument _ a _ _ | commandAfterDashes a =>
    "unexpected argument '" ++ Style.invalid.paint a ++ "' found"
  | unknownCommand _ name _ => "unrecognized subcommand '" ++ Style.invalid.paint name ++ "'"

/-- The values that would have been right, if they can be listed. -/
def possibleValues : UsageError → List String
  | valueMissing f | impossibleValue f _ => f.possibleValues
  | _ => []

/-- A known word of some kind that may have been meant. -/
def similarTip (kind : String) (words : List String) : Option String :=
  let quoted := String.intercalate ", " (words.map fun w => "'" ++ Style.valid.paint w ++ "'")
  match words with
  | [] => none
  | [_] => some ("a similar " ++ kind ++ " exists: " ++ quoted)
  | _ => some ("some similar " ++ kind ++ "s exist: " ++ quoted)

/-- What may have been meant. -/
def tip : UsageError → Option String
  | impossibleValue f v => similarTip "value" (Text.similarTo f.possibleValues v).getLast?.toList
  | unexpectedArgument _ _ similar _ =>
    similarTip "argument" (similar.toList.map Flag.typed)
  | unknownCommand _ _ similar => similarTip "subcommand" similar
  | commandAfterDashes name =>
    some ("subcommand '" ++ Style.valid.paint name ++ "' exists; to use it, remove the '" ++
      Style.invalid.paint "--" ++ "' before it")
  | _ => none

/-- How the program could have been used; nothing for values that are wrong or missing. -/
def usage : UsageError → Option String
  | valueMissing _ | impossibleValue .. | badPlatform .. => none
  | repeated _ | commandAfterDashes _ => some (Help.usage .program)
  | unexpectedValue c f _ used => some (Help.usageWith c (used ++ [f]))
  | unexpectedArgument c _ similar used => some (Help.usageWith c (used ++ similar.toList))
  | unknownCommand c _ _ => some (Help.usage c)

/-- Whether the command at fault has a flag for help. -/
def pointsToHelp : UsageError → Bool
  | unknownCommand c _ _ => (Flag.of c).contains .help
  | _ => true

def message (e : UsageError) : String :=
  Style.fault.paint "error:" ++ " " ++ e.description ++
    (if e.possibleValues.isEmpty then ""
      else "\n  " ++ Help.possibleValuesNote Style.valid.paint e.possibleValues) ++
    (e.tip.map (("\n\n  " ++ Style.valid.paint "tip:" ++ " ") ++ ·)).getD "" ++
    (e.usage.map ("\n\n" ++ ·)).getD "" ++
    if e.pointsToHelp then
      "\n\nFor more information, try '" ++ Style.literal.paint Flag.help.typed ++ "'.\n"
    else "\n"

end UsageError

end Conveyor
