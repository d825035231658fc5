import Conveyor.Json.Basic
import Conveyor.Text.Lowercase

/-!
Kinds of cluster objects: the group and version of the interface that serves them, and the plural
under which they are found there.
-/

namespace Conveyor

/-- Group and version of an interface; those of the core have no group. -/
def splitApiVersion (apiVersion : String) : String × String :=
  match apiVersion.toList.span (· ≠ '/') with
  | (_, []) => ("", apiVersion)
  | (group, _ :: version) => (String.ofList group, String.ofList version)

structure Kind where
  group : String
  version : String
  name : String
  apiVersion : String
  plural : String
  deriving DecidableEq, Repr

namespace Kind

/-- A kind whose plural is its lower case name with an `s`. -/
def ofName (apiVersion name : String) : Kind :=
  let (group, version) := splitApiVersion apiVersion
  ⟨group, version, name, apiVersion, Text.lowercase name ++ "s"⟩

def toJson (k : Kind) : Json :=
  .ofMembers [("group", .string k.group), ("version", .string k.version), ("kind", .string k.name),
    ("api_version", .string k.apiVersion), ("plural", .string k.plural)]

def stage : Kind := ofName "v2.edp.epam.com/v1" "Stage"

def pipeline : Kind := ofName "v2.edp.epam.com/v1" "CDPipeline"

def imageStream : Kind := ofName "v2.edp.epam.com/v1" "CodebaseImageStream"

def component : Kind := ofName "v1.edp.epam.com/v1" "EDPComponent"

def releaseJob : Kind := ofName "v2.edp.epam.com/v1" "JenkinsJob"

def role : Kind := ofName "rbac.authorization.k8s.io/v1" "Role"

def roleBinding : Kind := ofName "rbac.authorization.k8s.io/v1" "RoleBinding"

def namespaceKind : Kind := ofName "v1" "Namespace"

/-- The tenant's wrapper around a namespace. -/
def space : Kind := ofName "tenancy.kiosk.sh/v1alpha1" "Space"

/-- The only way for a tenant to have a project made. -/
def projectRequest : Kind := ofName "project.openshift.io/v1" "ProjectRequest"

def project : Kind := ofName "project.openshift.io/v1" "Project"

def event : Kind := ofName "events.k8s.io/v1" "Event"

/-- The platform's tenancy kinds, which have no types of their own here. -/
def tenancy : List Kind := [space, projectRequest, project]

/-- The kinds that have a definition document, in the order of installation. -/
def defined : List Kind := [component, pipeline, imageStream, releaseJob, stage]

end Kind

end Conveyor
