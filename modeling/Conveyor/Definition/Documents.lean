import Conveyor.Definition.Schema
import Conveyor.Resource.Kind

/-!
The documents that define the operator's kinds of objects to a cluster, in the order of
installation.
-/

namespace Conveyor

/-- A column of the table in which the cluster shows objects of a kind. -/
structure Column where
  name : String
  type : String
  path : String

structure Definition where
  kind : Kind
  spec : Schema
  status : Option Schema := none
  columns : List Column := []

namespace Definition

def columnJson (c : Column) : Json :=
  .ofMembers [("name", .string c.name), ("type", .string c.type), ("jsonPath", .string c.path)]

/-- The schema of the whole object. -/
def schema (d : Definition) : Json :=
  .ofMembers [("description", .string ("Auto-generated derived type for " ++ d.kind.name ++
      "Spec via `CustomResource`")),
    ("properties", .ofPresent [("spec", some (.ofMembers d.spec.members)),
      ("status", d.status.map fun s =>
        .ofMembers (s.members ++ Schema.presenceMembers .optional))]),
    ("required", .strings ["spec"]), ("title", .string d.kind.name), Schema.typeMember "object"]

def version (d : Definition) : Json :=
  .ofMembers [("additionalPrinterColumns", .array (d.columns.map columnJson)),
    ("name", .string d.kind.version), ("schema", .ofMembers [("openAPIV3Schema", d.schema)]),
    ("served", .bool true), ("storage", .bool true),
    ("subresources", .ofPresent [("status", d.status.map fun _ => .object [])])]

/-- The document. -/
def toJson (d : Definition) : Json :=
  .ofMembers [("apiVersion", .string "apiextensions.k8s.io/v1"),
    ("kind", .string "CustomResourceDefinition"),
    ("metadata", .ofMembers [("name", .string (d.kind.plural ++ "." ++ d.kind.group))]),
    ("spec", .ofMembers [("group", .string d.kind.group),
      ("names", .ofMembers [("categories", .array []), ("kind", .string d.kind.name),
        ("plural", .string d.kind.plural), ("shortNames", .array []),
        ("singular", .string (Text.lowercase d.kind.name))]),
      ("scope", .string "Namespaced"), ("versions", .array [d.version])])]

/-! ### Fields by presence -/

def required (name description : String) (s : Schema) : String × String × Presence × Schema :=
  (name, description, .required, s)

def withDefault (name description : String) (value : Json) (s : Schema) :
    String × String × Presence × Schema :=
  (name, description, .withDefault value, s)

def optional (name description : String) (s : Schema) : String × String × Presence × Schema :=
  (name, description, .optional, s)

/-- A text that is empty when left out. -/
def textField (name description : String) : String × String × Presence × Schema :=
  withDefault name description (.string "") .text

/-- A list that is empty when left out. -/
def listField (name description : String) (items : Schema) : String × String × Presence × Schema :=
  withDefault name description (.array []) (.list items)

/-- A choice that is no when left out. -/
def flagField (name description : String) : String × String × Presence × Schema :=
  withDefault name description (.bool false) .boolean

/-! ### The kinds -/

def component : Definition where
  kind := .component
  spec := .record "A platform component registered with its endpoint"
    [textField "type" "Component type, e.g. \"registry\"",
      required "url" "Component endpoint; for the registry, the host images are pushed to" .text,
      textField "icon" "Icon shown in the portal",
      flagField "visible" "Whether the component is listed in the portal"]

def pipeline : Definition where
  kind := .pipeline
  spec := .record "A continuous delivery pipeline grouping ordered stages"
    [required "name" "Pipeline name, used as the prefix of environment labels" .text,
      listField "inputDockerStreams" "Codebase image streams feeding the entry stage" .text,
      textField "deploymentType" "Deployment type passed to stage jobs, e.g. \"container\"",
      listField "applications" "Applications promoted through the pipeline" .text,
      listField "applicationsToPromote"
        "Applications whose image streams are promoted between stages" .text]

def tag : Schema :=
  .record "A container image tag and when it was produced"
    [required "name" "Tag name" .text,
      optional "created" "Creation time as reported by the registry" .text]

def imageStream : Definition where
  kind := .imageStream
  spec := .record "Image stream of a single codebase"
    [required "codebase" "Codebase this stream belongs to" .text,
      textField "imageName" "Fully qualified image name without tag",
      listField "tags" "Known tags" tag]

def provisionerCall : Schema :=
  .record "Reference to the provisioner job and the parameters it is run with"
    [required "name" "Path of the provisioner job in Jenkins" .text,
      required "config" "Provisioner parameters, serialized as a JSON object" .text]

def releaseJob : Definition where
  kind := .releaseJob
  spec := .record "A Jenkins job managed on behalf of a stage"
    [optional "ownerName" "Jenkins instance owning the job" .text,
      required "stageName" "Stage metadata name the job releases" .text,
      required "jenkinsFolder" "Folder the job is created in" .text,
      required "job" "Provisioner invocation" provisionerCall]

def qualityGate : Schema :=
  .record "A single quality check an artifact must pass in this stage"
    [required "qualityGateType" "Type of gate, e.g. \"manual\" or \"autotests\"" .text,
      required "stepName" "Pipeline step name for this gate" .text,
      optional "autotestName" "Autotest codebase to run for an \"autotests\" gate" .text,
      optional "branchName" "Branch of the autotest codebase" .text]

def library : Schema :=
  .record "A named pipeline library at a branch"
    [textField "name" "Library codebase name", textField "branch" "Branch to load the library from"]

def source : Schema :=
  .record "Pipeline library the stage's release job runs from"
    [withDefault "type" "\"default\" for the built-in library, \"library\" for a named one"
        (.string "default") .text,
      optional "library" "Named library, set when `type` is \"library\"" library]

def stageStatus : Schema :=
  .record "Observed state of a Stage"
    [flagField "available" "Whether the stage is fully provisioned",
      optional "last_time_updated" "When the status was last written" .instant,
      textField "status" "Coarse status, e.g. \"created\" or \"failed\"",
      textField "username" "User who made the last change",
      textField "action" "Last action performed",
      textField "result" "Outcome of the last action: \"success\" or \"error\"",
      optional "detailed_message"
        ("Detail for the last result, the error message on failure.\n\n" ++
          "Serialized as `null` when empty so a status merge patch clears an earlier failure " ++
          "message.")
        .text,
      textField "value" "Current state value, e.g. \"active\"",
      flagField "shouldBeHandled" "Whether a status update still has to be handled"]

def stage : Definition where
  kind := .stage
  spec := .record "One step of a CD pipeline's promotion sequence"
    [required "name" "Stage name, used in derived image stream names and environment labels" .text,
      required "cdPipeline" "Name of the CD pipeline this stage belongs to" .text,
      textField "description" "Free-form description",
      textField "triggerType" "Promotion trigger, e.g. \"Auto\" or \"Manual\"",
      withDefault "order" "Position in the pipeline; 0 is the entry stage" (.int 0) .int32,
      listField "qualityGates" "Quality gates, in execution order" qualityGate,
      withDefault "source" "Pipeline library running the release"
        (.ofMembers [("type", .string "default")]) source,
      optional "jobProvisioning" "Job provisioner used to create the stage's CI job" .text]
  status := some stageStatus
  columns := [⟨"Pipeline", "string", ".spec.cdPipeline"⟩, ⟨"Order", "integer", ".spec.order"⟩,
    ⟨"Status", "string", ".status.status"⟩]

/-- All definitions, in the order of installation. -/
def all : List Definition := [component, pipeline, imageStream, releaseJob, stage]

end Definition

end Conveyor
