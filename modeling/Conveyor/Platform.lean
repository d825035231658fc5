import Conveyor.Error
import Conveyor.Text.Blank
import Conveyor.Text.Lowercase

/-!
The platform that stages are provisioned on.
-/

namespace Conveyor

inductive Platform where
  /-- Namespaces, or spaces of tenants. -/
  | kubernetes
  /-- Projects. -/
  | openshift
  deriving DecidableEq, Repr

namespace Platform

def name : Platform → String
  | kubernetes => "kubernetes"
  | openshift => "openshift"

/-- The environment variable that selects the platform. -/
def variableName : String := "PLATFORM_TYPE"

/-- The platform of a name in any case, with blanks around it. -/
def ofText (s : String) : Except Error Platform :=
  let word := Text.lowercaseAscii (Text.trimBlank s)
  if word = kubernetes.name then .ok kubernetes
  else if word = openshift.name then .ok openshift
  else .error (.configuration variableName ("unsupported platform type '" ++ word ++ "'"))

end Platform

/-- How one operator process provisions. -/
structure Config where
  platform : Platform := .openshift
  /-- Whether namespaces of stages are made and removed here. -/
  managesNamespaces : Bool := true
  /-- Whether namespaces are asked for as spaces, which only plain Kubernetes has. -/
  usesSpaces : Bool := false
  deriving DecidableEq, Repr

namespace Config

/-- The environment variable that turns the management of namespaces on or off. -/
def managesNamespacesVariable : String := "MANAGE_NAMESPACE"

/-- The environment variable that turns spaces on or off. -/
def usesSpacesVariable : String := "KIOSK_ENABLED"

def isKubernetes (c : Config) : Bool := c.platform == .kubernetes

end Config

end Conveyor
