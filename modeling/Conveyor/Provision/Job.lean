import Conveyor.Provision.Gates
import Conveyor.Provision.Promotion

/-!
The release job of a stage. It is written only where it is missing or its specification has to
change.
-/

namespace Conveyor.ReleaseJob

/-- The parameters of the provisioner: some are always there, others only where the stage says
something. -/
def parameters (stage : Stage) (pipeline : Pipeline) : Dict String String :=
  let library :=
    if stage.spec.source.type = Source.libraryType then stage.spec.source.library else none
  .ofList <|
    [("PIPELINE_NAME", pipeline.name), ("STAGE_NAME", stage.spec.name),
      ("SOURCE_TYPE", stage.spec.source.type), ("DEPLOYMENT_TYPE", pipeline.spec.deploymentType),
      ("TRIGGER_TYPE", stage.spec.triggerType)] ++
    ((Gates.toText stage.spec.qualityGates).map fun t => ("QG_STAGES", t)).toList ++
    (library.map fun l => [("LIBRARY_NAME", l.name), ("LIBRARY_BRANCH", l.branch)]).getD [] ++
    ((stage.spec.jobProvisioner.filter (· ≠ "")).map fun p => ("JOB_PROVISIONING", p)).toList

/-- The job of a stage, before the cluster has given it a version. -/
def desired (stage : Stage) (pipeline : Pipeline) : ReleaseJob where
  metadata := { name := some stage.name, namespaceName := stage.metadata.namespaceName }
  spec :=
    { stageName := stage.name
      folder := pipeline.name ++ "-cd-pipeline"
      job := .ofParameters stage.spec.jobProvisioner (parameters stage pipeline) }

/-- Makes the job of a stage, or brings it up to date. -/
def put (stage : Stage) : Session Unit := do
  let pipeline ← Promotion.pipelineOf stage
  let job := desired stage pipeline
  let name := stage.name
  let found : Option ReleaseJob ← Session.request (.getReleaseJob stage.namespaceName name)
  match found with
  | none =>
    Session.requestFor "create" Kind.releaseJob.name name
      (.createReleaseJob stage.namespaceName job)
  | some existing =>
    if existing.spec = job.spec then pure ()
    else
      Session.requestFor "update" Kind.releaseJob.name name
        (.replaceReleaseJob stage.namespaceName { existing with spec := job.spec })

end Conveyor.ReleaseJob
