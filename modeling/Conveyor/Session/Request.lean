import Conveyor.Error
import Conveyor.Resource.Access
import Conveyor.Resource.Component
import Conveyor.Resource.ImageStream
import Conveyor.Resource.Pipeline
import Conveyor.Resource.ReleaseJob
import Conveyor.Resource.Stage

/-!
The requests that a stage's controller makes to a cluster, each with the type of its answer.
Look-ups answer with nothing for an object that is not there.
-/

namespace Conveyor

/-- What a request asks for, its arguments aside. -/
inductive Operation where
  | listStages
  | patchStageStatus
  | patchStageFinalizers
  | patchStageOwnership
  | getPipeline
  | getComponent
  | getImageStream
  | createImageStream
  | replaceImageStream
  | getReleaseJob
  | createReleaseJob
  | replaceReleaseJob
  | namespaceExists
  | createNamespace
  | deleteNamespace
  | createSpace
  | createProject
  | deleteProject
  | getRole
  | createRole
  | getRoleBinding
  | createRoleBinding
  deriving DecidableEq, Repr

namespace Operation

def name : Operation → String
  | listStages => "list_stages"
  | patchStageStatus => "patch_stage_status"
  | patchStageFinalizers => "patch_stage_finalizers"
  | patchStageOwnership => "patch_stage_ownership"
  | getPipeline => "get_pipeline"
  | getComponent => "get_component"
  | getImageStream => "get_image_stream"
  | createImageStream => "create_image_stream"
  | replaceImageStream => "replace_image_stream"
  | getReleaseJob => "get_jenkins_job"
  | createReleaseJob => "create_jenkins_job"
  | replaceReleaseJob => "replace_jenkins_job"
  | namespaceExists => "namespace_exists"
  | createNamespace => "create_namespace"
  | deleteNamespace => "delete_namespace"
  | createSpace => "create_space"
  | createProject => "create_project"
  | deleteProject => "delete_project"
  | getRole => "get_role"
  | createRole => "create_role"
  | getRoleBinding => "get_role_binding"
  | createRoleBinding => "create_role_binding"

def all : List Operation :=
  [listStages, patchStageStatus, patchStageFinalizers, patchStageOwnership, getPipeline,
    getComponent, getImageStream, createImageStream, replaceImageStream, getReleaseJob,
    createReleaseJob, replaceReleaseJob, namespaceExists, createNamespace, deleteNamespace,
    createSpace, createProject, deleteProject, getRole, createRole, getRoleBinding,
    createRoleBinding]

def ofName? (s : String) : Option Operation := all.find? (·.name = s)

end Operation

inductive Request where
  | listStages (namespaceName : String)
  | patchStageStatus (namespaceName name : String) (status : StageStatus)
  /-- With a version, the stage must still be at that version. -/
  | patchStageFinalizers (namespaceName name : String) (version : Option String)
    (finalizers : List String)
  /-- Sets the owners and adds the labels. -/
  | patchStageOwnership (namespaceName name : String) (owners : List OwnerReference)
      (labels : Dict String String)
  | getPipeline (namespaceName name : String)
  | getComponent (namespaceName name : String)
  | getImageStream (namespaceName name : String)
  | createImageStream (namespaceName : String) (stream : ImageStream)
  | replaceImageStream (namespaceName : String) (stream : ImageStream)
  | getReleaseJob (namespaceName name : String)
  | createReleaseJob (namespaceName : String) (job : ReleaseJob)
  | replaceReleaseJob (namespaceName : String) (job : ReleaseJob)
  | namespaceExists (name : String)
  | createNamespace (name : String)
  | deleteNamespace (name : String)
  | createSpace (name account : String)
  | createProject (name description : String)
  | deleteProject (name : String)
  | getRole (namespaceName name : String)
  | createRole (namespaceName : String) (role : Role)
  | getRoleBinding (namespaceName name : String)
  | createRoleBinding (namespaceName : String) (binding : RoleBinding)
  deriving DecidableEq

namespace Request

def operation : Request → Operation
  | listStages .. => .listStages
  | patchStageStatus .. => .patchStageStatus
  | patchStageFinalizers .. => .patchStageFinalizers
  | patchStageOwnership .. => .patchStageOwnership
  | getPipeline .. => .getPipeline
  | getComponent .. => .getComponent
  | getImageStream .. => .getImageStream
  | createImageStream .. => .createImageStream
  | replaceImageStream .. => .replaceImageStream
  | getReleaseJob .. => .getReleaseJob
  | createReleaseJob .. => .createReleaseJob
  | replaceReleaseJob .. => .replaceReleaseJob
  | namespaceExists .. => .namespaceExists
  | createNamespace .. => .createNamespace
  | deleteNamespace .. => .deleteNamespace
  | createSpace .. => .createSpace
  | createProject .. => .createProject
  | deleteProject .. => .deleteProject
  | getRole .. => .getRole
  | createRole .. => .createRole
  | getRoleBinding .. => .getRoleBinding
  | createRoleBinding .. => .createRoleBinding

/-- The type of the answer. -/
def Response : Request → Type
  | listStages .. => List Stage
  | getPipeline .. => Option Pipeline
  | getComponent .. => Option Component
  | getImageStream .. => Option ImageStream
  | getReleaseJob .. => Option ReleaseJob
  | namespaceExists .. => Bool
  | getRole .. => Option Role
  | getRoleBinding .. => Option RoleBinding
  | _ => Unit

def responseJson : (r : Request) → r.Response → Json
  | listStages .., stages => .array (List.map Stage.toJson stages)
  | getPipeline .., pipeline => (Option.map Pipeline.toJson pipeline).getD .null
  | getComponent .., component => (Option.map Component.toJson component).getD .null
  | getImageStream .., stream => (Option.map ImageStream.toJson stream).getD .null
  | getReleaseJob .., job => (Option.map ReleaseJob.toJson job).getD .null
  | namespaceExists .., found => .bool found
  | getRole .., role => (Option.map Role.toJson role).getD .null
  | getRoleBinding .., binding => (Option.map RoleBinding.toJson binding).getD .null
  | _, _ => .null

/-- The arguments in order. -/
def arguments : Request → List Json
  | listStages namespaceName => [.string namespaceName]
  | patchStageStatus namespaceName name status =>
    [.string namespaceName, .string name, status.toJson]
  | patchStageFinalizers namespaceName name version finalizers =>
    [.string namespaceName, .string name, .text? version, .strings finalizers]
  | patchStageOwnership namespaceName name owners labels =>
    [.string namespaceName, .string name, .array (owners.map OwnerReference.toJson), .ofDict labels]
  | createImageStream namespaceName stream | replaceImageStream namespaceName stream =>
    [.string namespaceName, stream.toJson]
  | createReleaseJob namespaceName job | replaceReleaseJob namespaceName job =>
    [.string namespaceName, job.toJson]
  | namespaceExists name | createNamespace name | deleteNamespace name | deleteProject name =>
    [.string name]
  | createSpace name account => [.string name, .string account]
  | createProject name description => [.string name, .string description]
  | createRole namespaceName role => [.string namespaceName, role.toJson]
  | createRoleBinding namespaceName binding => [.string namespaceName, binding.toJson]
  | getPipeline namespaceName name | getComponent namespaceName name
  | getImageStream namespaceName name | getReleaseJob namespaceName name
  | getRole namespaceName name | getRoleBinding namespaceName name =>
    [.string namespaceName, .string name]

/-- The request as a list of its operation's name and its arguments. -/
def toJson (r : Request) : Json := .array (.string r.operation.name :: r.arguments)

end Request

end Conveyor
