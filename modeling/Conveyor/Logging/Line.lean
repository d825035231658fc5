import Conveyor.Json.Printer
import Conveyor.Logging.Severity

/-!
Lines of the log, and their two forms: an object for programs, and words for people.
-/

namespace Conveyor

structure LogLine where
  severity : Severity
  /-- The part of the program that speaks. -/
  target : String
  message : String
  fields : List (String × Json)

namespace LogLine

/-- The names that a filter may ask for. -/
def fieldNames (l : LogLine) : List String := "message" :: l.fields.map Prod.fst

def toJson (l : LogLine) : Json :=
  .ofMembers [("level", .string l.severity.name), ("target", .string l.target),
    ("fields", .ofMembers (("message", .string l.message) :: l.fields))]

/-- Texts stand without quotes. -/
def fieldText : Json → String
  | .string s => s
  | j => j.render

def toText (l : LogLine) : String :=
  String.intercalate " " ([l.severity.name, l.target ++ ":", l.message] ++
    l.fields.map fun (name, value) => name ++ "=" ++ fieldText value)

end LogLine

end Conveyor
