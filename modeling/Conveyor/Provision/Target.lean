import Conveyor.Session.Basic

/-!
The namespace that a stage is provisioned into, in the three forms that platforms know. Making what
is there already and removing what is gone both count as done.
-/

namespace Conveyor.Target

/-- The session with failures of one sort taken for success; others are told as those of an action.
-/
def tolerate (tolerable : Error → Bool) (action kind name : String) (s : Session Unit) :
    Session Unit :=
  s.andThen fun
    | .ok () => .done (.ok ())
    | .error e => .done (if tolerable e then .ok () else .error (.downstream action kind name e))

def create (kind name : String) (s : Session Unit) : Session Unit :=
  tolerate Error.isAlreadyExists "create" kind name s

def remove (kind name : String) (s : Session Unit) : Session Unit :=
  tolerate Error.isNotFound "delete" kind name s

/-- The namespace must have been made by others. -/
def require (stage : Stage) : Session Unit := do
  let found : Bool ← Session.request (.namespaceExists stage.targetNamespace)
  if found then pure ()
  else Session.fail (.notFound Kind.namespaceKind.name "" stage.targetNamespace)

def putNamespace (stage : Stage) : Session Unit :=
  create Kind.namespaceKind.name stage.targetNamespace
    (Session.request (.createNamespace stage.targetNamespace))

/-- A space on the account of the stage's own namespace. -/
def putSpace (stage : Stage) : Session Unit :=
  create Kind.space.name stage.targetNamespace
    (Session.request (.createSpace stage.targetNamespace stage.namespaceName))

def putProject (stage : Stage) : Session Unit :=
  create Kind.project.name stage.targetNamespace
    (Session.request (.createProject stage.targetNamespace stage.spec.description))

def deleteNamespace (stage : Stage) : Session Unit :=
  remove Kind.namespaceKind.name stage.targetNamespace
    (Session.request (.deleteNamespace stage.targetNamespace))

def deleteProject (stage : Stage) : Session Unit :=
  remove Kind.project.name stage.targetNamespace
    (Session.request (.deleteProject stage.targetNamespace))

end Conveyor.Target
