import Conveyor.Resource.Basic

/-!
Stages: the steps of a pipeline's promotion sequence. The stages of a pipeline are ordered by
number, and those of order zero are fed from the pipeline's input streams.
-/

namespace Conveyor

/-- A check that an artifact must pass in a stage. -/
structure QualityGate where
  type : String
  stepName : String
  autotestName : Option String := none
  branchName : Option String := none
  deriving DecidableEq

namespace QualityGate

def toJson (g : QualityGate) : Json :=
  .ofPresent [("qualityGateType", some (.string g.type)), ("stepName", some (.string g.stepName)),
    ("autotestName", g.autotestName.map .string), ("branchName", g.branchName.map .string)]

def record : Record QualityGate :=
  (Record.make QualityGate.mk)
    |>.field (.required "qualityGateType" .text)
    |>.field (.required "stepName" .text)
    |>.field (.optional "autotestName" .text)
    |>.field (.optional "branchName" .text)

def decode : Decoder QualityGate := record.decode "QualityGate"

end QualityGate

/-- A pipeline library at a branch. -/
structure Library where
  name : String := ""
  branch : String := ""
  deriving DecidableEq

namespace Library

def toJson (l : Library) : Json :=
  .ofMembers [("name", .string l.name), ("branch", .string l.branch)]

def record : Record Library :=
  (Record.make Library.mk)
    |>.field (.withDefault "name" "" .text)
    |>.field (.withDefault "branch" "" .text)

def decode : Decoder Library := record.decode "Library"

end Library

/-- Where the release job of a stage comes from: the built-in library or a named one. -/
structure Source where
  type : String := "default"
  library : Option Library := none
  deriving DecidableEq

namespace Source

/-- The type of a source with a library of its own. -/
def libraryType : String := "library"

def toJson (s : Source) : Json :=
  .ofPresent [("type", some (.string s.type)), ("library", s.library.map Library.toJson)]

def record : Record Source :=
  (Record.make Source.mk)
    |>.field (.withDefault "type" "default" .text)
    |>.field (.optional "library" Library.decode)

def decode : Decoder Source := record.decode "Source"

end Source

structure StageSpec where
  /-- Names the stage in image stream names and environment labels. -/
  name : String
  pipeline : String
  description : String := ""
  triggerType : String := ""
  order : Int := 0
  qualityGates : List QualityGate := []
  source : Source := {}
  jobProvisioner : Option String := none
  deriving DecidableEq

namespace StageSpec

def toJson (s : StageSpec) : Json :=
  .ofPresent [("name", some (.string s.name)), ("cdPipeline", some (.string s.pipeline)),
    ("description", some (.string s.description)), ("triggerType", some (.string s.triggerType)),
    ("order", some (.int s.order)),
    ("qualityGates", some (.array (s.qualityGates.map QualityGate.toJson))),
    ("source", some s.source.toJson), ("jobProvisioning", s.jobProvisioner.map .string)]

def record : Record StageSpec :=
  (Record.make StageSpec.mk)
    |>.field (.required "name" .text)
    |>.field (.required "cdPipeline" .text)
    |>.field (.withDefault "description" "" .text)
    |>.field (.withDefault "triggerType" "" .text)
    |>.field (.withDefault "order" 0 .int32)
    |>.field (.withDefault "qualityGates" [] (.list QualityGate.decode))
    |>.field (.withDefault "source" {} Source.decode)
    |>.field (.optional "jobProvisioning" .text)

def decode : Decoder StageSpec := record.decode "StageSpec"

end StageSpec

/-- What was last observed of a stage. -/
structure StageStatus where
  available : Bool := false
  lastTimeUpdated : Option Timestamp := none
  status : String := ""
  username : String := ""
  action : String := ""
  result : String := ""
  /-- Written as null when there is none, so that patching with the status takes an earlier message
  away. -/
  detailedMessage : Option String := none
  value : String := ""
  shouldBeHandled : Bool := false
  deriving DecidableEq

namespace StageStatus

def toJson (s : StageStatus) : Json :=
  .ofPresent [("available", some (.bool s.available)),
    ("last_time_updated", s.lastTimeUpdated.map fun t => .string t.toText),
    ("status", some (.string s.status)), ("username", some (.string s.username)),
    ("action", some (.string s.action)), ("result", some (.string s.result)),
    ("detailed_message", some (.text? s.detailedMessage)), ("value", some (.string s.value)),
    ("shouldBeHandled", some (.bool s.shouldBeHandled))]

def record : Record StageStatus :=
  (Record.make StageStatus.mk)
    |>.field (.withDefault "available" false .boolean)
    |>.field (.optional "last_time_updated" .instant)
    |>.field (.withDefault "status" "" .text)
    |>.field (.withDefault "username" "" .text)
    |>.field (.withDefault "action" "" .text)
    |>.field (.withDefault "result" "" .text)
    |>.field (.optional "detailed_message" .text)
    |>.field (.withDefault "value" "" .text)
    |>.field (.withDefault "shouldBeHandled" false .boolean)

def decode : Decoder StageStatus := record.decode "StageStatus"

end StageStatus

structure Stage where
  metadata : Metadata
  spec : StageSpec
  status : Option StageStatus := none
  deriving DecidableEq

namespace Stage

def toJson (s : Stage) : Json :=
  .ofPresent (Kind.stage.members ++
    [("metadata", some s.metadata.toJson), ("spec", some s.spec.toJson),
      ("status", s.status.map StageStatus.toJson)])

/-- In an array the status may be null, but it may not be left out. -/
def record : Record Stage :=
  (Record.make Stage.mk)
    |>.field (.required "metadata" Metadata.decode)
    |>.field (.required "spec" StageSpec.decode)
    |>.field { Field.optional "status" StageStatus.decode with beyond := none }

def decode : Decoder Stage := record.decode "Stage"

instance : Resource Stage where
  kind := .stage
  metadata := metadata
  withMetadata s m := { s with metadata := m }
  toJson := toJson
  decode := decode
  metadata_withMetadata _ _ := rfl
  withMetadata_withMetadata _ _ _ := rfl
  withMetadata_metadata _ := rfl

/-- Holds a stage until its environment labels are gone. -/
def finalizer : String := "envLabelDeletion"

/-- The label with the name of the pipeline that a stage belongs to. -/
def pipelineLabelKey : String := "app.edp.epam.com/cdPipelineName"

def name (s : Stage) : String := s.metadata.nameOrStem

def namespaceName (s : Stage) : String := s.metadata.namespaceOrEmpty

def finalizers (s : Stage) : List String := s.metadata.finalizers.getD []

def ownerReferences (s : Stage) : List OwnerReference := s.metadata.ownerReferences.getD []

/-- Whether the stage reads the pipeline's input streams itself. -/
def isFirst (s : Stage) : Bool := s.spec.order == 0

/-- The namespace that the stage is provisioned into. -/
def targetNamespace (s : Stage) : String := s.namespaceName ++ "-" ++ s.name

/-- Whether an owner reference is one to a pipeline. -/
def isPipelineOwner (o : OwnerReference) : Bool := o.kind == Kind.pipeline.name

/-- The pipeline that the stage belongs to: the one that owns it, else the one it asks for. -/
def pipelineName (s : Stage) : String :=
  match s.ownerReferences.find? isPipelineOwner with
  | some owner => owner.name
  | none => s.spec.pipeline

def hasFinalizer (s : Stage) : Bool := s.finalizers.contains finalizer

def isBeingDeleted (s : Stage) : Bool := s.metadata.deletionTimestamp.isSome

def pipelineLabel (s : Stage) : Option String := (s.metadata.labels.getD ∅).get? pipelineLabelKey

end Stage

end Conveyor
