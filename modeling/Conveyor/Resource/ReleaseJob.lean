import Conveyor.Resource.Basic

/-!
Release jobs: which provisioner job sets up the release of a stage, and with which parameters.
Another controller makes the real job from it.
-/

namespace Conveyor

/-- A provisioner job and its parameters, which are written as a JSON object. -/
structure ProvisionerCall where
  name : String
  config : String
  deriving DecidableEq

namespace ProvisionerCall

/-- The provisioner of stages that name none. -/
def defaultProvisioner : String := "default"

/-- The call of a provisioner; no name and an empty one mean the default provisioner. -/
def ofParameters (provisioner : Option String) (parameters : Dict String String) :
    ProvisionerCall :=
  let chosen := (provisioner.filter (· ≠ "")).getD defaultProvisioner
  ⟨"job-provisions/job/cd/job/" ++ chosen, (Json.ofDict parameters).render⟩

def toJson (c : ProvisionerCall) : Json :=
  .ofMembers [("name", .string c.name), ("config", .string c.config)]

def record : Record ProvisionerCall :=
  (Record.make ProvisionerCall.mk)
    |>.field (.required "name" .text)
    |>.field (.required "config" .text)

def decode : Decoder ProvisionerCall := record.decode "Job"

end ProvisionerCall

structure ReleaseJobSpec where
  /-- The automation server that has the job. -/
  ownerName : Option String := none
  stageName : String
  folder : String
  job : ProvisionerCall
  deriving DecidableEq

namespace ReleaseJobSpec

def toJson (s : ReleaseJobSpec) : Json :=
  .ofPresent [("ownerName", s.ownerName.map .string), ("stageName", some (.string s.stageName)),
    ("jenkinsFolder", some (.string s.folder)), ("job", some s.job.toJson)]

def record : Record ReleaseJobSpec :=
  (Record.make ReleaseJobSpec.mk)
    |>.field (.optional "ownerName" .text)
    |>.field (.required "stageName" .text)
    |>.field (.required "jenkinsFolder" .text)
    |>.field (.required "job" ProvisionerCall.decode)

def decode : Decoder ReleaseJobSpec := record.decode "JenkinsJobSpec"

end ReleaseJobSpec

structure ReleaseJob where
  metadata : Metadata
  spec : ReleaseJobSpec
  deriving DecidableEq

namespace ReleaseJob

def toJson (j : ReleaseJob) : Json :=
  .ofPresent (Kind.releaseJob.members ++
    [("metadata", some j.metadata.toJson), ("spec", some j.spec.toJson)])

def record : Record ReleaseJob :=
  (Record.make ReleaseJob.mk)
    |>.field (.required "metadata" Metadata.decode)
    |>.field (.required "spec" ReleaseJobSpec.decode)

def decode : Decoder ReleaseJob := record.decode "JenkinsJob"

instance : Resource ReleaseJob where
  kind := .releaseJob
  metadata := metadata
  withMetadata j m := { j with metadata := m }
  toJson := toJson
  decode := decode
  metadata_withMetadata _ _ := rfl
  withMetadata_withMetadata _ _ _ := rfl
  withMetadata_metadata _ := rfl

end ReleaseJob

end Conveyor
