import Conveyor.Provision.Access
import Conveyor.Provision.Job
import Conveyor.Provision.Target

/-!
The steps of provisioning a stage. Each step names the one after it, and the platform decides which
of them makes the namespace; the first step that fails ends the work, which can be done again from
the start.
-/

namespace Conveyor

/-- At most `n` members of the chain that starts at `a`. -/
def chainFrom {α : Type} (next : α → Option α) : Nat → α → List α
  | 0, _ => []
  | n + 1, a =>
    a :: match next a with
      | none => []
      | some b => chainFrom next n b

inductive ProvisionStep where
  /-- Goes on to the step that suits the platform. -/
  | delegateNamespace
  | checkNamespaceExists
  | putNamespace
  | putSpace
  | putProject
  | configureAccess
  | putImageStreams
  | putReleaseJob
  deriving DecidableEq, Repr

namespace ProvisionStep

def name : ProvisionStep → String
  | delegateNamespace => "delegate-namespace"
  | checkNamespaceExists => "check-namespace-exists"
  | putNamespace => "put-namespace"
  | putSpace => "put-space"
  | putProject => "put-project"
  | configureAccess => "configure-rbac"
  | putImageStreams => "put-image-streams"
  | putReleaseJob => "put-ci-job"

def all : List ProvisionStep :=
  [delegateNamespace, checkNamespaceExists, putNamespace, putSpace, putProject, configureAccess,
    putImageStreams, putReleaseJob]

/-- The step after a step. -/
def next (config : Config) : ProvisionStep → Option ProvisionStep
  | delegateNamespace =>
    if !config.managesNamespaces then some checkNamespaceExists
    else if config.isKubernetes && config.usesSpaces then some putSpace
    else if config.isKubernetes then some putNamespace
    else some putProject
  | checkNamespaceExists | putNamespace | putSpace | putProject => some configureAccess
  | configureAccess => some putImageStreams
  | putImageStreams => some putReleaseJob
  | putReleaseJob => none

/-- All steps in order. No step comes twice, so the count of steps bounds the chain. -/
def chain (config : Config) : List ProvisionStep :=
  chainFrom (next config) all.length delegateNamespace

def session (config : Config) (stage : Stage) : ProvisionStep → Session Unit
  | delegateNamespace => pure ()
  | checkNamespaceExists => Target.require stage
  | putNamespace => Target.putNamespace stage
  | putSpace => Target.putSpace stage
  | putProject => Target.putProject stage
  | configureAccess => Access.configure config stage
  | putImageStreams => Promotion.promote stage
  | putReleaseJob => ReleaseJob.put stage

end ProvisionStep

/-- Brings into being all that a stage needs. -/
def provision (config : Config) (stage : Stage) : Session Unit :=
  Session.each (ProvisionStep.chain config) (ProvisionStep.session config stage)

end Conveyor
