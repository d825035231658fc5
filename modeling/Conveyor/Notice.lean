import Conveyor.Resource.Stage

/-!
Notices about stages, which the cluster shows to whoever looks at the stage.
-/

namespace Conveyor

/-- Something that happened to a stage. -/
inductive StageEvent where
  | provisioned
  | provisioningFailed (message : String)
  /-- Deletion waits for later stages. -/
  | deletionDeferred
  | finalized
  | cleanupFailed (message : String)
  deriving DecidableEq, Repr

namespace StageEvent

def reason : StageEvent → String
  | provisioned => "Provisioned"
  | provisioningFailed _ => "ProvisioningFailed"
  | deletionDeferred => "DeletionDeferred"
  | finalized => "Finalized"
  | cleanupFailed _ => "CleanupFailed"

/-- The action of running the provisioning steps. -/
def provisionAction : String := "Provision"

/-- The action of deleting a stage. -/
def deleteAction : String := "Delete"

def action : StageEvent → String
  | provisioned | provisioningFailed _ => provisionAction
  | deletionDeferred | finalized | cleanupFailed _ => deleteAction

/-- Failures are warnings. -/
def type : StageEvent → String
  | provisioningFailed _ | cleanupFailed _ => "Warning"
  | _ => "Normal"

def note : StageEvent → Option String
  | provisioningFailed message | cleanupFailed message => some message
  | deletionDeferred => some "waiting for later stages of the pipeline to be deleted"
  | provisioned | finalized => none

end StageEvent

/-- The object that a notice is about. -/
structure ObjectReference where
  apiVersion : Option String := none
  fieldPath : Option String := none
  kind : Option String := none
  name : Option String := none
  namespaceName : Option String := none
  resourceVersion : Option String := none
  uid : Option String := none
  deriving DecidableEq

namespace ObjectReference

def toJson (r : ObjectReference) : Json :=
  .ofPresent [("apiVersion", r.apiVersion.map .string), ("fieldPath", r.fieldPath.map .string),
    ("kind", r.kind.map .string), ("name", r.name.map .string),
    ("namespace", r.namespaceName.map .string), ("resourceVersion", r.resourceVersion.map .string),
    ("uid", r.uid.map .string)]

def record : Record ObjectReference :=
  (Record.make ObjectReference.mk)
    |>.field (.optional "apiVersion" .text)
    |>.field (.optional "fieldPath" .text)
    |>.field (.optional "kind" .text)
    |>.field (.optional "name" .text)
    |>.field (.optional "namespace" .text)
    |>.field (.optional "resourceVersion" .text)
    |>.field (.optional "uid" .text)

def decode : Decoder ObjectReference := record.decodeObject "ObjectReference"

end ObjectReference

/-- The reference by which notices name a stage. -/
def Stage.reference (s : Stage) : ObjectReference where
  apiVersion := some Kind.stage.apiVersion
  kind := some Kind.stage.name
  name := s.metadata.name
  namespaceName := s.metadata.namespaceName
  uid := s.metadata.uid

/-- An event and the object it happened to. -/
structure Notice where
  subject : ObjectReference
  event : StageEvent
  deriving DecidableEq

end Conveyor
