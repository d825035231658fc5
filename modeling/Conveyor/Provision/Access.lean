import Conveyor.Platform
import Conveyor.Session.Basic

/-!
Who may do what in the namespace that a stage is provisioned into: the admin console reads
deployments, the automation server administers, and on OpenShift the tenant's groups administer and
view. Objects that are there already stay as they are.
-/

namespace Conveyor.Access

def apiGroup : String := "rbac.authorization.k8s.io"

/-- The role to read deployments. -/
def viewDeploymentsRole : String := "admin-console-view-deployments"

/-- The binding of that role to the admin console. -/
def deploymentsViewerBinding : String := "ac-deployments-viewer"

/-- The binding of the administrator's role to the automation server. -/
def jenkinsAdminBinding : String := "jenkins-admin"

def adminConsoleAccount : String := "edp-admin-console"

def jenkinsAccount : String := "jenkins"

def metadata (name namespaceName : String) : Metadata :=
  { name := some name, namespaceName := some namespaceName }

def serviceAccount (name namespaceName : String) : Subject :=
  { kind := "ServiceAccount", name, namespaceName := some namespaceName }

def userGroup (name : String) : Subject :=
  { kind := "Group", name, apiGroup := some apiGroup }

def binding (name namespaceName roleKind role : String) (subjects : List Subject) :
    RoleBinding where
  metadata := metadata name namespaceName
  roleRef := ⟨apiGroup, roleKind, role⟩
  subjects := some subjects

/-- The role to read deployments in a target namespace. -/
def deploymentsRole (target : String) : Role where
  metadata := metadata viewDeploymentsRole target
  rules := some
    [{ apiGroups := some ["apps"], resources := some ["deployments"], verbs := ["get", "list"] }]

/-- All bindings in a target namespace, in the order of creation, for a stage of a source namespace.
-/
def bindings (source target : String) (config : Config) : List RoleBinding :=
  let admins := if config.isKubernetes then []
    else [userGroup (source ++ "-edp-super-admin"), userGroup (source ++ "-edp-admin")]
  let viewers := if config.isKubernetes then []
    else
      [binding (source ++ "-view") target "ClusterRole" "view" [userGroup (source ++ "-edp-view")]]
  [binding deploymentsViewerBinding target "Role" viewDeploymentsRole
      [serviceAccount adminConsoleAccount source],
    binding jenkinsAdminBinding target "ClusterRole" "admin"
      (serviceAccount jenkinsAccount source :: admins)]
    ++ viewers

def ensureRole (role : Role) : Session Unit := do
  let namespaceName := role.metadata.namespaceOrEmpty
  let name := role.metadata.nameOrStem
  let found : Option Role ← Session.request (.getRole namespaceName name)
  if found.isSome then pure ()
  else Session.requestFor "create" Kind.role.name name (.createRole namespaceName role)

def ensureBinding (binding : RoleBinding) : Session Unit := do
  let namespaceName := binding.metadata.namespaceOrEmpty
  let name := binding.metadata.nameOrStem
  let found : Option RoleBinding ← Session.request (.getRoleBinding namespaceName name)
  if found.isSome then pure ()
  else
    Session.requestFor "create" Kind.roleBinding.name name
      (.createRoleBinding namespaceName binding)

/-- Makes the role and the bindings that are missing. -/
def configure (config : Config) (stage : Stage) : Session Unit := do
  ensureRole (deploymentsRole stage.targetNamespace)
  Session.each (bindings stage.namespaceName stage.targetNamespace config) ensureBinding

end Conveyor.Access
