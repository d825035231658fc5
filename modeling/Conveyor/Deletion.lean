import Conveyor.Finalizers
import Conveyor.Retirement

/-!
The deletion of stages. A stage holds a finalizer for its whole life. When its deletion is asked for
it waits until no sibling depends on it, then what was provisioned for it is undone, and last the
finalizer goes.
-/

namespace Conveyor

/-- Where a stage is on its way out. -/
inductive DeletionState where
  | active
  /-- Deletion is asked for, and siblings still depend on the stage. -/
  | pendingDependents
  /-- Deletion is asked for, and nothing stands in its way. -/
  | finalizing
  /-- The finalizer is off. -/
  | gone
  deriving DecidableEq, Repr

namespace DeletionState

def name : DeletionState → String
  | active => "Active"
  | pendingDependents => "PendingDependents"
  | finalizing => "Finalizing"
  | gone => "Gone"

end DeletionState

namespace Stage

def deletionState (s : Stage) (siblings : List Stage) : DeletionState :=
  if !s.isBeingDeleted then .active
  else if !s.hasFinalizer then .gone
  else if s.hasDependents siblings then .pendingDependents
  else .finalizing

/-- Writes a list of finalizers, provided that the stage is still as it was read. -/
def writeFinalizers (s : Stage) (finalizers : List String) : Session Unit :=
  Session.request
    (.patchStageFinalizers s.namespaceName s.name s.metadata.resourceVersion finalizers)

/-- Puts the finalizer on a stage; tells whether that took a write. -/
def ensureFinalizer (s : Stage) : Session Bool :=
  match Finalizers.add? s.metadata.finalizers finalizer with
  | none => pure false
  | some finalizers => do
    s.writeFinalizers finalizers
    pure true

/-- Takes the finalizer off a stage. -/
def releaseFinalizer (s : Stage) : Session Unit :=
  match Finalizers.remove? s.metadata.finalizers finalizer with
  | none => pure ()
  | some finalizers => s.writeFinalizers finalizers

/-- Brings the deletion of a stage forward and tells the state that it was found in. -/
def advanceDeletion (config : Config) (s : Stage) : Session DeletionState := do
  let state := s.deletionState (← s.siblings s.pipelineName)
  if state = .finalizing then do
    deprovision config s
    s.releaseFinalizer
  pure state

end Stage

end Conveyor
