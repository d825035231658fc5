import Conveyor.Environment
import Conveyor.Provision.Steps

/-!
Undoing the provisioning of a stage: its environment is retired from the streams it consumes, and
its namespace is removed if namespaces are managed here.
-/

namespace Conveyor

namespace Retirement

/-- Retires an environment from one stream, in one write, if there is anything to do. -/
def retireFrom (namespaceName env : String) (stream : ImageStream) : Session Unit :=
  if stream.needsRetiring env then
    Session.requestFor "update" Kind.imageStream.name stream.name
      (.replaceImageStream namespaceName (stream.retire env))
  else pure ()

/-- Retires the environment of a stage from all streams that the stage consumes. -/
def deleteEnvironmentLabels (stage : Stage) : Session Unit := do
  let pipeline ← Promotion.pipelineOf stage
  let env := stage.environmentLabel pipeline.spec.name
  let cs ← Promotion.consumed stage pipeline
  Session.each cs fun c => retireFrom stage.namespaceName env c.stream

end Retirement

inductive RetirementStep where
  | deleteEnvironmentLabels
  /-- Goes on to the step that suits the platform. -/
  | delegateNamespaceDeletion
  | deleteNamespace
  | deleteProject
  deriving DecidableEq, Repr

namespace RetirementStep

def name : RetirementStep → String
  | deleteEnvironmentLabels => "delete-environment-labels"
  | delegateNamespaceDeletion => "delegate-namespace-deletion"
  | deleteNamespace => "delete-namespace"
  | deleteProject => "delete-project"

def all : List RetirementStep :=
  [deleteEnvironmentLabels, delegateNamespaceDeletion, deleteNamespace, deleteProject]

/-- The step after a step. -/
def next (config : Config) : RetirementStep → Option RetirementStep
  | deleteEnvironmentLabels => some delegateNamespaceDeletion
  | delegateNamespaceDeletion =>
    if !config.managesNamespaces then none
    else if config.isKubernetes then some deleteNamespace
    else some deleteProject
  | deleteNamespace | deleteProject => none

/-- All steps in order. No step comes twice, so the count of steps bounds the chain. -/
def chain (config : Config) : List RetirementStep :=
  chainFrom (next config) all.length deleteEnvironmentLabels

def session (stage : Stage) : RetirementStep → Session Unit
  | deleteEnvironmentLabels => Retirement.deleteEnvironmentLabels stage
  | delegateNamespaceDeletion => pure ()
  | deleteNamespace => Target.deleteNamespace stage
  | deleteProject => Target.deleteProject stage

end RetirementStep

/-- Undoes what provisioning did for a stage. -/
def deprovision (config : Config) (stage : Stage) : Session Unit :=
  Session.each (RetirementStep.chain config) (RetirementStep.session stage)

end Conveyor
