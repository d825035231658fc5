import Conveyor.Json.Printer
import Conveyor.Resource.Stage
import Conveyor.Text.Separated

/-!
Quality gates as a parameter of the release job. Neighbours of one type run side by side and are
written as one JSON array, a gate without such a neighbour stands alone; the blocks are separated by
commas.
-/

namespace Conveyor.Gates

/-- The gates in runs of neighbours of one type. -/
def runs (gates : List QualityGate) : List (List QualityGate) :=
  gates.splitBy fun a b => a.type == b.type

/-- What the release job is told about a gate. -/
def gateJson (g : QualityGate) : Json :=
  .ofMembers [("name", .string g.type), ("step_name", .string g.stepName)]

def runJson : List QualityGate → Json
  | [g] => gateJson g
  | run => .array (run.map gateJson)

/-- The text of the gates; none when there are none. -/
def toText (gates : List QualityGate) : Option String :=
  if gates.isEmpty then none
  else some (Text.Separated.join ',' ((runs gates).map fun run => (runJson run).render))

end Conveyor.Gates
