import Conveyor.Cluster.Basic
import Conveyor.Json.Patch
import Conveyor.Session.Basic

/-!
How the cluster in memory answers requests. Creating an object that is there fails, and so does
replacing one that is not, or one of another version than the given one; a stage under deletion
disappears with its last finalizer. A request that fails leaves all objects as they were.
-/

namespace Conveyor.Cluster

variable {α : Type} [Resource α]

/-- Objects by the type they have, with the change of the cluster when they are put back. -/
structure Shelf (α : Type) where
  get : Cluster → Objects α
  set : Cluster → Objects α → Cluster

def stageShelf : Shelf Stage := ⟨stages, fun c os => { c with stages := os }⟩

def pipelineShelf : Shelf Pipeline := ⟨pipelines, fun c os => { c with pipelines := os }⟩

def componentShelf : Shelf Component := ⟨components, fun c os => { c with components := os }⟩

def imageStreamShelf : Shelf ImageStream :=
  ⟨imageStreams, fun c os => { c with imageStreams := os }⟩

def releaseJobShelf : Shelf ReleaseJob := ⟨releaseJobs, fun c os => { c with releaseJobs := os }⟩

def roleShelf : Shelf Role := ⟨roles, fun c os => { c with roles := os }⟩

def roleBindingShelf : Shelf RoleBinding :=
  ⟨roleBindings, fun c os => { c with roleBindings := os }⟩

/-- The key of an object in a namespace. -/
def keyIn (namespaceName : String) (a : α) : ObjectKey :=
  ⟨namespaceName, (Resource.metadata a).nameOrEmpty⟩

/-! ### Arranging -/

/-- Puts an object into a namespace, over one that is there. -/
def insert (shelf : Shelf α) (namespaceName : String) (a : α) (c : Cluster) : Cluster :=
  let stored := Resource.stored a namespaceName c.nextVersion
  shelf.set c.counted ((shelf.get c).insert (keyIn namespaceName a) stored)

/-- Puts a stage into its own namespace. -/
def insertStage (s : Stage) (c : Cluster) : Cluster :=
  let stored := { s with metadata := { s.metadata with resourceVersion := some c.nextVersion } }
  { c.counted with stages := c.stages.insert ⟨s.namespaceName, s.name⟩ stored }

def insertNamespace (name : String) (c : Cluster) : Cluster :=
  { c with namespaces := c.namespaces.insert name () }

/-- Sets the deletion time of a stage and stores it again. -/
def markDeleting (now : Timestamp) (s : Stage) (c : Cluster) : Cluster :=
  c.insertStage { s with metadata := { s.metadata with deletionTimestamp := some now } }

/-! ### Objects -/

def create (shelf : Shelf α) (namespaceName : String) (a : α) (c : Cluster) :
    Except Error Unit × Cluster :=
  let key := keyIn namespaceName a
  if (shelf.get c).contains key then
    (.error (.alreadyExists (Resource.kind α).name key.name), c.counted)
  else
    let stored := Resource.stored a namespaceName c.nextVersion
    (.ok (), shelf.set c.counted ((shelf.get c).insert key stored))

/-- Whether a version that a writer goes by is still the stored one; without one it does not matter.
-/
def versionMatches (given stored : Option String) : Bool := given.isNone || given == stored

def replace (shelf : Shelf α) (namespaceName : String) (a : α) (c : Cluster) :
    Except Error Unit × Cluster :=
  let key := keyIn namespaceName a
  match (shelf.get c).get? key with
  | none => (.error (.notFound (Resource.kind α).name namespaceName key.name), c.counted)
  | some current =>
    let m := Resource.metadata a
    if versionMatches m.resourceVersion (Resource.metadata current).resourceVersion then
      let stored := Resource.withMetadata a { m with resourceVersion := some c.nextVersion }
      (.ok (), shelf.set c.counted ((shelf.get c).insert key stored))
    else (.error (.conflict (Resource.kind α).name key.name), c.counted)

/-! ### Stages -/

def stagesOf (namespaceName : String) (c : Cluster) : List Stage :=
  (c.stages.toList.filter fun e => e.1.namespaceName = namespaceName).map (·.2)

/-- Puts a patched stage in place of the stored one and notes the write. -/
def writeStage (key : ObjectKey) (s : Stage) (write : StageWrite) (c : Cluster) : Cluster :=
  { c with
    stages := c.stages.insert key s
    stageWrites := c.stageWrites ++ [(key.name, write)] }

/-- A status after a patch by another one. -/
def patchedStatus (current : Option StageStatus) (patch : StageStatus) :
    Except DecodeError StageStatus :=
  StageStatus.decode
    (Json.mergePatch ((current.map StageStatus.toJson).getD (.object [])) patch.toJson)

def patchStatus (key : ObjectKey) (status : StageStatus) (c : Cluster) :
    Except Error Unit × Cluster :=
  match c.stages.get? key with
  | none => (.error (.notFound Kind.stage.name key.namespaceName key.name), c)
  | some s =>
    match patchedStatus s.status status with
    | .error e => (.error (.serialization (.value e)), c)
    | .ok merged => (.ok (), c.writeStage key { s with status := some merged } .status)

def patchFinalizers (key : ObjectKey) (version : Option String) (finalizers : List String)
    (c : Cluster) :
    Except Error Unit × Cluster :=
  match c.stages.get? key with
  | none => (.error (.notFound Kind.stage.name key.namespaceName key.name), c.counted)
  | some s =>
    if versionMatches version s.metadata.resourceVersion then
      if finalizers.isEmpty && s.isBeingDeleted then
        (.ok (),
          { c.counted with
            stages := c.stages.erase key
            stageWrites := c.stageWrites ++ [(key.name, .finalizers)] })
      else
        let m :=
          { s.metadata with finalizers := some finalizers, resourceVersion := some c.nextVersion }
        (.ok (), c.counted.writeStage key { s with metadata := m } .finalizers)
    else (.error (.conflict Kind.stage.name key.name), c.counted)

def patchOwnership (key : ObjectKey) (owners : List OwnerReference) (labels : Dict String String)
    (c : Cluster) : Except Error Unit × Cluster :=
  match c.stages.get? key with
  | none => (.error (.notFound Kind.stage.name key.namespaceName key.name), c.counted)
  | some s =>
    let m :=
      { s.metadata with
        ownerReferences := some owners
        labels := some ((s.metadata.labels.getD ∅).extend labels)
        resourceVersion := some c.nextVersion }
    (.ok (), c.counted.writeStage key { s with metadata := m } .ownership)

/-! ### Namespaces -/

def createNamespace (name : String) (c : Cluster) : Except Error Unit × Cluster :=
  if c.namespaces.contains name then (.error (.alreadyExists Kind.namespaceKind.name name), c)
  else (.ok (), { c with namespaces := c.namespaces.insert name () })

def deleteNamespace (name : String) (c : Cluster) : Except Error Unit × Cluster :=
  if c.namespaces.contains name then (.ok (), { c with namespaces := c.namespaces.erase name })
  else (.error (.notFound Kind.namespaceKind.name "" name), c)

/-- A space comes with its namespace. -/
def createSpace (name account : String) (c : Cluster) : Except Error Unit × Cluster :=
  if c.spaces.contains name then (.error (.alreadyExists Kind.space.name name), c)
  else
    (.ok (),
      { c with spaces := c.spaces.insert name account, namespaces := c.namespaces.insert name () })

/-- A project comes with its namespace. -/
def createProject (name : String) (c : Cluster) : Except Error Unit × Cluster :=
  if c.projects.contains name then (.error (.alreadyExists Kind.projectRequest.name name), c)
  else
    (.ok (),
      { c with projects := c.projects.insert name (), namespaces := c.namespaces.insert name () })

/-- The namespace goes with its project. -/
def deleteProject (name : String) (c : Cluster) : Except Error Unit × Cluster :=
  if c.projects.contains name then
    (.ok (), { c with projects := c.projects.erase name, namespaces := c.namespaces.erase name })
  else (.error (.notFound Kind.project.name "" name), c)

/-! ### Contents -/

def objectsJson {β : Type} (f : β → Json) (os : Objects β) : Json := .array (os.values.map f)

/-- All that is stored, objects in the order of their keys. -/
def toJson (c : Cluster) : Json :=
  .ofMembers [("stages", objectsJson Stage.toJson c.stages),
    ("pipelines", objectsJson Pipeline.toJson c.pipelines),
    ("components", objectsJson Component.toJson c.components),
    ("image_streams", objectsJson ImageStream.toJson c.imageStreams),
    ("jenkins_jobs", objectsJson ReleaseJob.toJson c.releaseJobs),
    ("roles", objectsJson Role.toJson c.roles),
    ("role_bindings", objectsJson RoleBinding.toJson c.roleBindings),
    ("namespaces", .strings c.namespaces.keys), ("projects", .strings c.projects.keys),
    ("spaces", .array (c.spaces.toList.map fun e => .strings [e.1, e.2])),
    ("stage_writes", .array (c.stageWrites.map fun w => .strings [w.1, w.2.name]))]

/-! ### Requests -/

/-- The answer to a request that is not made to fail. -/
def serve : (r : Request) → Cluster → Except Error r.Response × Cluster
  | .listStages namespaceName, c => (.ok (c.stagesOf namespaceName), c)
  | .patchStageStatus namespaceName name status, c => c.patchStatus ⟨namespaceName, name⟩ status
  | .patchStageFinalizers namespaceName name version finalizers, c =>
    c.patchFinalizers ⟨namespaceName, name⟩ version finalizers
  | .patchStageOwnership namespaceName name owners labels, c =>
    c.patchOwnership ⟨namespaceName, name⟩ owners labels
  | .getPipeline namespaceName name, c => (.ok (c.pipelines.get? ⟨namespaceName, name⟩), c)
  | .getComponent namespaceName name, c => (.ok (c.components.get? ⟨namespaceName, name⟩), c)
  | .getImageStream namespaceName name, c => (.ok (c.imageStreams.get? ⟨namespaceName, name⟩), c)
  | .createImageStream namespaceName stream, c => c.create imageStreamShelf namespaceName stream
  | .replaceImageStream namespaceName stream, c => c.replace imageStreamShelf namespaceName stream
  | .getReleaseJob namespaceName name, c => (.ok (c.releaseJobs.get? ⟨namespaceName, name⟩), c)
  | .createReleaseJob namespaceName job, c => c.create releaseJobShelf namespaceName job
  | .replaceReleaseJob namespaceName job, c => c.replace releaseJobShelf namespaceName job
  | .namespaceExists name, c => (.ok (c.namespaces.contains name), c)
  | .createNamespace name, c => c.createNamespace name
  | .deleteNamespace name, c => c.deleteNamespace name
  | .createSpace name account, c => c.createSpace name account
  | .createProject name _, c => c.createProject name
  | .deleteProject name, c => c.deleteProject name
  | .getRole namespaceName name, c => (.ok (c.roles.get? ⟨namespaceName, name⟩), c)
  | .createRole namespaceName role, c => c.create roleShelf namespaceName role
  | .getRoleBinding namespaceName name, c => (.ok (c.roleBindings.get? ⟨namespaceName, name⟩), c)
  | .createRoleBinding namespaceName binding, c => c.create roleBindingShelf namespaceName binding

/-- The answer to a request. One that is to fail does so before anything is looked at, and only
once. -/
def answer (r : Request) (c : Cluster) : Except Error r.Response × Cluster :=
  if c.failures.contains r.operation then
    (.error (injectedFault r.operation),
      { c with failures := c.failures.filter (· ≠ r.operation) })
  else c.serve r

/-- The cluster as a client that takes no notices. -/
def client : Client Cluster := ⟨answer, fun _ c => c⟩

end Conveyor.Cluster
