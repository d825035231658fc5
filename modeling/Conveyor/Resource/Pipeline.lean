import Conveyor.Resource.Basic

/-!
Delivery pipelines: a name, the image streams that feed the entry stage, and what is promoted.
-/

namespace Conveyor

structure PipelineSpec where
  /-- First part of the environment labels of the pipeline's stages. -/
  name : String
  inputStreams : List String := []
  deploymentType : String := ""
  applications : List String := []
  applicationsToPromote : List String := []
  deriving DecidableEq

namespace PipelineSpec

def toJson (s : PipelineSpec) : Json :=
  .ofMembers [("name", .string s.name), ("inputDockerStreams", .strings s.inputStreams),
    ("deploymentType", .string s.deploymentType), ("applications", .strings s.applications),
    ("applicationsToPromote", .strings s.applicationsToPromote)]

def record : Record PipelineSpec :=
  (Record.make PipelineSpec.mk)
    |>.field (.required "name" .text)
    |>.field (.withDefault "inputDockerStreams" [] (.list .text))
    |>.field (.withDefault "deploymentType" "" .text)
    |>.field (.withDefault "applications" [] (.list .text))
    |>.field (.withDefault "applicationsToPromote" [] (.list .text))

def decode : Decoder PipelineSpec := record.decode "CDPipelineSpec"

end PipelineSpec

structure Pipeline where
  metadata : Metadata
  spec : PipelineSpec
  deriving DecidableEq

namespace Pipeline

def toJson (p : Pipeline) : Json :=
  .ofPresent (Kind.pipeline.members ++
    [("metadata", some p.metadata.toJson), ("spec", some p.spec.toJson)])

def record : Record Pipeline :=
  (Record.make Pipeline.mk)
    |>.field (.required "metadata" Metadata.decode)
    |>.field (.required "spec" PipelineSpec.decode)

def decode : Decoder Pipeline := record.decode "CDPipeline"

instance : Resource Pipeline where
  kind := .pipeline
  metadata := metadata
  withMetadata p m := { p with metadata := m }
  toJson := toJson
  decode := decode
  metadata_withMetadata _ _ := rfl
  withMetadata_withMetadata _ _ _ := rfl
  withMetadata_metadata _ := rfl

/-- The name under which stages refer to the pipeline. -/
def name (p : Pipeline) : String := p.metadata.nameOrStem

end Pipeline

end Conveyor
