import Conveyor.Resource.ImageStream
import Conveyor.Resource.Stage
import Conveyor.Text.Separated

/-!
Environments of image streams. A stage marks the streams it consumes with a label `pipeline/stage`;
when it stops, the label goes and the environment enters the stream's history, a list of names in
one annotation.
-/

namespace Conveyor

namespace EnvironmentHistory

/-- The annotation with the environments that stopped consuming a stream. -/
def annotationKey : String := "deploy.edp.epam.com/last-deleted-envs"

/-- The environments that a history text lists; empty entries do not count. -/
def ofText (s : String) : List String := (Text.Separated.split ',' s).filter (· ≠ "")

def toText (envs : List String) : String := Text.Separated.join ',' envs

/-- The environments with one more at the end, unless it is among them. -/
def record (env : String) (envs : List String) : List String :=
  if envs.contains env then envs else envs ++ [env]

theorem record_eq (env : String) (envs : List String) :
    record env envs = if env ∈ envs then envs else envs ++ [env] := by
  simp only [record, List.contains_eq_mem, decide_eq_true_eq]

/-- The history text after one more environment; without an earlier text the history is empty. -/
def append (current : Option String) (env : String) : String :=
  toText (record env (ofText (current.getD "")))

end EnvironmentHistory

namespace ImageStream

/-- The environments that stopped consuming the stream. -/
def lastDeletedEnvironments (s : ImageStream) : List String :=
  match s.annotations.get? EnvironmentHistory.annotationKey with
  | some text => EnvironmentHistory.ofText text
  | none => []

/-- The stream without an environment's label and with the environment in its history. -/
def retire (env : String) (s : ImageStream) : ImageStream :=
  let history := EnvironmentHistory.append (s.annotations.get? EnvironmentHistory.annotationKey) env
  { s with
    metadata :=
      { s.metadata with
        labels := some (s.labels.erase env)
        annotations := some (s.annotations.insert EnvironmentHistory.annotationKey history) } }

/-- Whether retiring an environment takes a label away or changes the history. -/
def needsRetiring (env : String) (s : ImageStream) : Bool :=
  s.labels.contains env ||
    s.annotations.get? EnvironmentHistory.annotationKey !=
      (s.retire env).annotations.get? EnvironmentHistory.annotationKey

end ImageStream

namespace Stage

/-- The label that the stage puts on streams it consumes for a pipeline. -/
def environmentLabel (pipeline : String) (s : Stage) : String := pipeline ++ "/" ++ s.spec.name

theorem toList_environmentLabel (pipeline : String) (s : Stage) :
    (s.environmentLabel pipeline).toList = pipeline.toList ++ '/' :: s.spec.name.toList := by
  simp [environmentLabel, String.toList_append]

end Stage

end Conveyor
