import Conveyor.Logging.Filter
import Conveyor.Platform
import Conveyor.Text.Styled

/-!
The commands and flags of the program: how they are written, and what is said of them.
-/

namespace Conveyor

/-- The program by itself, or one of its commands. -/
inductive Command where
  | program
  | controller
  | help
  deriving DecidableEq, Repr

namespace Command

/-- The commands that have a name of their own on the command line. -/
def named : List Command := [controller, help]

def name : Command → String
  | program => "conveyor"
  | controller => "controller"
  | help => "help"

def about : Command → String
  | program => "Conveyor - provisions and retires the stages of CD pipelines"
  | controller => "Run the Stage controller (default mode)"
  | help => "Print this message or the help of the given subcommand(s)"

/-- The command after the program's name. -/
def path : Command → String
  | program => program.name
  | c => program.name ++ " " ++ c.name

/-- What may follow the command. -/
def synopsis : Command → String
  | program => " [OPTIONS] [COMMAND]"
  | controller => ""
  | help => " [COMMAND]..."

def ofName? (s : String) : Option Command := named.find? (·.name = s)

end Command

inductive Flag where
  | definitions
  | platform
  | managesNamespaces
  | usesSpaces
  | plainLogs
  | help
  | version
  deriving DecidableEq, Repr

namespace Flag

/-- In the order in which help lists them. -/
def all : List Flag :=
  [definitions, platform, managesNamespaces, usesSpaces, plainLogs, help, version]

/-- The flags that a command knows. -/
def of : Command → List Flag
  | .program => all
  | .controller => [help]
  | .help => []

/-- The name after two dashes. -/
def long : Flag → String
  | definitions => "crd"
  | platform => "platform"
  | managesNamespaces => "manage-namespace"
  | usesSpaces => "kiosk-enabled"
  | plainLogs => "plain-logs"
  | help => "help"
  | version => "version"

/-- The letter after one dash. -/
def letter : Flag → Option Char
  | help => some 'h'
  | version => some 'V'
  | _ => none

/-- What the flag's value is called, if it takes one. -/
def valueName : Flag → Option String
  | platform => some "PLATFORM"
  | managesNamespaces => some "MANAGE_NAMESPACE"
  | usesSpaces => some "KIOSK_ENABLED"
  | _ => none

def takesValue (f : Flag) : Bool := f.valueName.isSome

/-- The environment variable that stands in for the flag. -/
def variableName : Flag → Option String
  | platform => some Platform.variableName
  | managesNamespaces => some Config.managesNamespacesVariable
  | usesSpaces => some Config.usesSpacesVariable
  | plainLogs => some "LOG_PLAIN"
  | _ => none

def about : Flag → String
  | definitions => "Generate CRD manifests and exit"
  | platform => "Platform stages are provisioned on: kubernetes or openshift"
  | managesNamespaces => "Create and delete stage namespaces"
  | usesSpaces => "Request stage namespaces as kiosk spaces (kubernetes only)"
  | plainLogs => "Emit human-readable logs instead of JSON"
  | help => "Print help"
  | version => "Print version"

/-- How a truth value is written. -/
def switchText (b : Bool) : String := if b then "true" else "false"

/-- The text of the value in use when none is given. -/
def standardText : Flag → Option String
  | platform => some ({} : Config).platform.name
  | managesNamespaces => some (switchText ({} : Config).managesNamespaces)
  | usesSpaces => some (switchText ({} : Config).usesSpaces)
  | _ => none

/-- The only values that the flag, or the variable that stands in for it, may have. -/
def possibleValues : Flag → List String
  | managesNamespaces | usesSpaces | plainLogs => [switchText true, switchText false]
  | _ => []

/-- The flag's name as it is typed. -/
def typed (f : Flag) : String := "--" ++ f.long

/-- What stands behind the flag's name for the value. -/
def valueMark (f : Flag) : String :=
  match f.valueName with
  | some v => " <" ++ v ++ ">"
  | none => ""

/-- The flag as errors write it. -/
def shown (f : Flag) : String := f.typed ++ f.valueMark

/-- The flag as help and usage lines write it. -/
def painted (f : Flag) : String := Text.Style.literal.paint f.typed ++ f.valueMark

def ofLong? (c : Command) (s : String) : Option Flag := (of c).find? (·.long = s)

def ofLetter? (c : Command) (letter : Char) : Option Flag := (of c).find? (·.letter = some letter)

end Flag

end Conveyor
