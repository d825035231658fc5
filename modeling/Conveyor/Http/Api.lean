import Conveyor.Http.Message
import Conveyor.Resource.Untyped
import Conveyor.Session.Basic

/-!
Requests as messages to the cluster's interface, and replies as answers. An object's address is made
from its kind, namespace and name; a reply of a failure status is a refusal, whatever its body is.
-/

namespace Conveyor.Http

/-- Under which name patches are made. -/
def fieldManager : String := "conveyor-stage-controller"

/-! ### Addresses -/

/-- The address of all objects of a kind, in a namespace if one is given. -/
def collection (k : Kind) (namespaceName : Option String) : String :=
  (if k.group = "" then "/api/" else "/apis/") ++ k.apiVersion ++ "/" ++
    (match namespaceName with
      | some n => "namespaces/" ++ n ++ "/"
      | none => "") ++ k.plural

def message (method : Method) (target : String) (body : Option (String × Json)) :
    Except Fault Message :=
  match address target with
  | .ok a => .ok ⟨method, a, body.map (·.1), body.map (·.2)⟩
  | .error f => .error (.badAddress f)

/-- A message about one object, which needs a name. -/
def messageAbout (method : Method) (base name suffix : String) (body : Option (String × Json)) :
    Except Fault Message :=
  if name = "" then .error .emptyName else message method (base ++ "/" ++ name ++ suffix) body

def jsonBody (j : Json) : Option (String × Json) := some ("application/json", j)

def list (base : String) : Except Fault Message := message .get (base ++ "?") none

def get (base name : String) : Except Fault Message := messageAbout .get base name "" none

def create (base : String) (object : Json) : Except Fault Message :=
  message .post (base ++ "?") (jsonBody object)

def replace (base name : String) (object : Json) : Except Fault Message :=
  messageAbout .put base name "?" (jsonBody object)

/-- A merge patch of an object or of a part of it. -/
def patch (base name part : String) (changes : Json) : Except Fault Message :=
  messageAbout .patch base name (part ++ "?&fieldManager=" ++ fieldManager)
    (some ("application/merge-patch+json", changes))

def delete (base name : String) : Except Fault Message :=
  messageAbout .delete base name "?" (jsonBody (.object []))

/-! ### Bodies -/

def statusPatch (status : StageStatus) : Json := .ofMembers [("status", status.toJson)]

def finalizersPatch (version : Option String) (finalizers : List String) : Json :=
  .ofMembers [("metadata", .ofPresent
    [("finalizers", some (.strings finalizers)), ("resourceVersion", version.map .string)])]

def ownershipPatch (owners : List OwnerReference) (labels : Dict String String) : Json :=
  .ofMembers [("metadata", .ofMembers
    [("ownerReferences", .array (owners.map OwnerReference.toJson)), ("labels", .ofDict labels)])]

/-! ### Messages -/

/-- What a request is about: kind, namespace and name, as its failures tell them. -/
structure Topic where
  kind : Kind
  namespaceName : Option String
  name : String

def topic : Request → Topic
  | .listStages n => ⟨.stage, some n, ""⟩
  | .patchStageStatus n name _ | .patchStageFinalizers n name _ _
  | .patchStageOwnership n name _ _ =>
    ⟨.stage, some n, name⟩
  | .getPipeline n name => ⟨.pipeline, some n, name⟩
  | .getComponent n name => ⟨.component, some n, name⟩
  | .getImageStream n name => ⟨.imageStream, some n, name⟩
  | .createImageStream n stream | .replaceImageStream n stream =>
    ⟨.imageStream, some n, stream.name⟩
  | .getReleaseJob n name => ⟨.releaseJob, some n, name⟩
  | .createReleaseJob n job | .replaceReleaseJob n job =>
    ⟨.releaseJob, some n, job.metadata.nameOrStem⟩
  | .namespaceExists name | .createNamespace name | .deleteNamespace name =>
    ⟨.namespaceKind, none, name⟩
  | .createSpace name _ => ⟨.space, none, name⟩
  | .createProject name _ => ⟨.projectRequest, none, name⟩
  | .deleteProject name => ⟨.project, none, name⟩
  | .getRole n name => ⟨.role, some n, name⟩
  | .createRole n role => ⟨.role, some n, role.metadata.nameOrStem⟩
  | .getRoleBinding n name => ⟨.roleBinding, some n, name⟩
  | .createRoleBinding n binding => ⟨.roleBinding, some n, binding.metadata.nameOrStem⟩

/-- The message that a request is made by. -/
def requestMessage (r : Request) : Except Fault Message :=
  let ⟨kind, namespaceName, name⟩ := topic r
  let base := collection kind namespaceName
  match r with
  | .listStages _ => list base
  | .patchStageStatus _ _ status => patch base name "/status" (statusPatch status)
  | .patchStageFinalizers _ _ version finalizers =>
    patch base name "" (finalizersPatch version finalizers)
  | .patchStageOwnership _ _ owners labels => patch base name "" (ownershipPatch owners labels)
  | .getPipeline .. | .getComponent .. | .getImageStream .. | .getReleaseJob .. | .namespaceExists _
  | .getRole .. | .getRoleBinding .. => get base name
  | .createImageStream _ stream => create base stream.toJson
  | .replaceImageStream _ stream => replace base name stream.toJson
  | .createReleaseJob _ job => create base job.toJson
  | .replaceReleaseJob _ job => replace base name job.toJson
  | .createNamespace _ => create base (NamespaceObject.toJson (.named name))
  | .deleteNamespace _ | .deleteProject _ => delete base name
  | .createSpace _ account =>
    create base (DynamicObject.toJson kind (.named name)
      [("spec", .ofMembers [("account", .string account)])])
  | .createProject _ description =>
    create base (DynamicObject.toJson kind (.named name)
      [("displayName", .string name), ("description", .string description)])
  | .createRole _ role => create base role.toJson
  | .createRoleBinding _ binding => create base binding.toJson

/-! ### Replies -/

/-- Reads a text as a JSON value of a type. Only what the type asks for has to be readable. -/
def readAs? {α : Type} (f : Decoder α) (text : String) : Option α :=
  (Json.readLoosely? text).bind fun j => (f j).toOption

/-- The refusal in a reply of a failure status; a body that is none is quoted in one made up for it.
-/
def refusalOf (reply : Reply) : Refusal :=
  match readAs? Refusal.decode reply.text with
  | some refusal => refusal
  | none =>
    { status := statusText reply.status
      message := Text.quote reply.text
      reason := "Failed to parse error data"
      code := reply.status }

def isFailure (reply : Reply) : Bool := 400 ≤ reply.status && reply.status < 600

/-- What is read from the text of a reply, unless the reply is a refusal. -/
def contentBy {α : Type} (f : String → Option α) (reply : Reply) : Except Fault α :=
  if isFailure reply then .error (.refused (refusalOf reply))
  else
    match f reply.text with
    | some a => .ok a
    | none => .error .unreadableReply

/-- The value in a reply. -/
def content {α : Type} (f : Decoder α) : Reply → Except Fault α := contentBy (readAs? f)

/-- The object in a reply, if it is there. What the cluster calls not found is no failure here. -/
def content? {α : Type} (f : Decoder α) (reply : Reply) : Except Fault (Option α) :=
  match content f reply with
  | .ok a => .ok (some a)
  | .error (.refused r) => if r.reason = "NotFound" then .ok none else .error (.refused r)
  | .error e => .error e

/-- Reads the removed object, or a report on its removal. The kind tells which of the two it is, and
for that the whole text has to be readable. -/
def readRemoved? {α : Type} (f : Decoder α) (text : String) : Option Unit :=
  match Json.read text with
  | .ok j =>
    if j.member "kind" = .string StatusObject.kindName then readAs? StatusObject.decode text
    else readAs? f.shape text
  | .error _ => none

/-- The answer that a reply gives to a request. -/
def answerOf : (r : Request) → Reply → Except Fault r.Response
  | .listStages _, reply => content (ObjectList.decode Stage.decode) reply
  | .patchStageStatus .., reply | .patchStageFinalizers .., reply
  | .patchStageOwnership .., reply =>
    content (Decoder.shape Stage.decode) reply
  | .getPipeline .., reply => content? Pipeline.decode reply
  | .getComponent .., reply => content? Component.decode reply
  | .getImageStream .., reply => content? ImageStream.decode reply
  | .createImageStream .., reply | .replaceImageStream .., reply =>
    content (Decoder.shape ImageStream.decode) reply
  | .getReleaseJob .., reply => content? ReleaseJob.decode reply
  | .createReleaseJob .., reply | .replaceReleaseJob .., reply =>
    content (Decoder.shape ReleaseJob.decode) reply
  | .namespaceExists _, reply => (content? NamespaceObject.decode reply).map Option.isSome
  | .createNamespace _, reply => content (Decoder.shape NamespaceObject.decode) reply
  | .deleteNamespace _, reply => contentBy (readRemoved? NamespaceObject.decode) reply
  | .createSpace .., reply | .createProject .., reply =>
    content (Decoder.shape DynamicObject.decode) reply
  | .deleteProject _, reply => contentBy (readRemoved? DynamicObject.decode) reply
  | .getRole .., reply => content? Role.decode reply
  | .createRole .., reply => content (Decoder.shape Role.decode) reply
  | .getRoleBinding .., reply => content? RoleBinding.decode reply
  | .createRoleBinding .., reply => content (Decoder.shape RoleBinding.decode) reply

/-- The failure of a request, by what the request is about. -/
def failure (r : Request) (f : Fault) : Error :=
  let t := topic r
  .ofFault f t.kind.name (t.namespaceName.getD "") t.name

end Conveyor.Http
