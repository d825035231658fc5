import Conveyor.Deletion

/-!
The reconciliation of a stage: finalizer, ownership by its pipeline, provisioning, and a status and
a notice that tell how it went. A stage under deletion is brought forward on its way out instead.
-/

namespace Conveyor

namespace StageStatus

/-- The action that statuses name. -/
def setupAction : String := "setup_initial_structure"

/-- The status after provisioning; who changed the stage last, and what is still to be handled,
stays. -/
def provisioned (now : Timestamp) (previous : Option StageStatus) : StageStatus :=
  { previous.getD {} with
    available := true
    lastTimeUpdated := some now
    status := "created"
    action := setupAction
    result := "success"
    detailedMessage := none
    value := "active" }

/-- The status after a failure of provisioning. -/
def failed (now : Timestamp) (e : Error) (previous : Option StageStatus) : StageStatus :=
  { previous.getD {} with
    available := false
    lastTimeUpdated := some now
    status := "failed"
    action := setupAction
    result := "error"
    detailedMessage := some e.message
    value := "failed" }

end StageStatus

/-- The reference by which a stage names its pipeline as its controller. -/
def Pipeline.ownerReference (p : Pipeline) : OwnerReference where
  apiVersion := Kind.pipeline.apiVersion
  blockOwnerDeletion := some true
  controller := some true
  kind := Kind.pipeline.name
  name := p.name
  uid := p.metadata.uid.getD ""

namespace Stage

def writeStatus (s : Stage) (status : StageStatus) : Session Unit :=
  Session.request (.patchStageStatus s.namespaceName s.name status)

/-- Whether owner reference and label name the pipeline. -/
def isOwnedBy (s : Stage) (p : Pipeline) : Bool :=
  (s.ownerReferences.any fun o => isPipelineOwner o && o.name == p.name) &&
    s.pipelineLabel == some p.name

/-- The owners of a stage with a pipeline's reference in place of earlier ones to pipelines. An
object has one controller only, so none of the others may be one. -/
def ownersWith (s : Stage) (owner : OwnerReference) : Except Error (List OwnerReference) :=
  let others := s.ownerReferences.filter (!isPipelineOwner ·)
  match others.find? OwnerReference.isController with
  | some other =>
    .error (.configuration (Kind.stage.name ++ " " ++ s.namespaceName ++ "/" ++ s.name)
      ("already controlled by " ++ other.kind ++ " " ++ other.name))
  | none => .ok (others ++ [owner])

/-- Makes the stage's pipeline its owner and labels the stage with it. -/
def ensureOwnership (s : Stage) : Session Unit := do
  let pipeline ← Promotion.pipelineOf s
  if s.isOwnedBy pipeline then pure ()
  else do
    let owners ← .done (s.ownersWith pipeline.ownerReference)
    Session.request
      (.patchStageOwnership s.namespaceName s.name owners
        (.singleton pipelineLabelKey pipeline.name))

def provisionOwned (config : Config) (s : Stage) : Session Unit := do
  s.ensureOwnership
  provision config s

/-- Seconds before a stage that others depend on is looked at again. -/
def dependentDelay : Nat := 10

def notify (s : Stage) (event : StageEvent) : Session Unit := Session.publish ⟨s.reference, event⟩

def reconcileDeletion (config : Config) (s : Stage) : Session Action := do
  match ← (s.advanceDeletion config).attempt with
  | .error e =>
    s.notify (.cleanupFailed e.message)
    Session.fail e
  | .ok .pendingDependents =>
    s.notify .deletionDeferred
    pure (.requeue dependentDelay)
  | .ok .finalizing =>
    s.notify .finalized
    pure .awaitChange
  | .ok .active | .ok .gone => pure .awaitChange

/-- Status and notice of a provisioning. A failure to write the failure down does not take its
place. -/
def report (now : Timestamp) (s : Stage) : Except Error Unit → Session Action
  | .ok () => do
    s.writeStatus (.provisioned now s.status)
    s.notify .provisioned
    pure .awaitChange
  | .error e => do
    let _ ← (s.writeStatus (.failed now e s.status)).attempt
    s.notify (.provisioningFailed e.message)
    Session.fail e

/-- What is done whenever a stage was made, changed or deleted. -/
def reconcile (config : Config) (now : Timestamp) (s : Stage) : Session Action :=
  if s.isBeingDeleted then s.reconcileDeletion config
  else do
    let _ ← s.ensureFinalizer
    s.report now (← (s.provisionOwned config).attempt)

end Stage

end Conveyor
