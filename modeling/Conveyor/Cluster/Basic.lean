import Conveyor.Session.Request

/-!
A cluster in memory. One counter numbers all writes; the version of a stored object is the number of
the write that stored it. Objects are found by namespace and name.
-/

namespace Conveyor

/-- Where an object is stored. Keys are ordered by namespace, then by name. -/
structure ObjectKey where
  namespaceName : String
  name : String
  deriving DecidableEq, Repr

namespace ObjectKey

instance : LT ObjectKey :=
  ⟨fun a b =>
    a.namespaceName < b.namespaceName ∨ a.namespaceName = b.namespaceName ∧ a.name < b.name⟩

theorem lt_def {a b : ObjectKey} :
    a < b ↔
      a.namespaceName < b.namespaceName ∨ a.namespaceName = b.namespaceName ∧ a.name < b.name :=
  Iff.rfl

instance : KeyOrder ObjectKey where
  decidableLt a b := decidable_of_iff _ lt_def.symm
  irrefl a h := by
    rcases lt_def.1 h with h | h
    · exact String.lt_irrefl _ h
    · exact String.lt_irrefl _ h.2
  trans {a b c} h k := by
    rw [lt_def] at *
    rcases h with h | ⟨h, h'⟩ <;> rcases k with k | ⟨k, k'⟩
    · exact .inl (String.lt_trans h k)
    · exact .inl (k ▸ h)
    · exact .inl (h ▸ k)
    · exact .inr ⟨h.trans k, String.lt_trans h' k'⟩
  trichotomous {a b} h k := by
    rw [lt_def] at *
    simp only [not_or, not_and] at h k
    have e : a.namespaceName = b.namespaceName := KeyOrder.trichotomous h.1 k.1
    have f : a.name = b.name := KeyOrder.trichotomous (h.2 e) (k.2 e.symm)
    cases a; cases b; simp_all

end ObjectKey

/-- Objects of one type by their keys. -/
abbrev Objects (α : Type) := Dict ObjectKey α

/-- What of a stage a patch has changed. -/
inductive StageWrite where
  | finalizers
  | ownership
  | status
  deriving DecidableEq, Repr

def StageWrite.name : StageWrite → String
  | finalizers => "finalizers"
  | ownership => "ownership"
  | status => "status"

structure Cluster where
  revision : Nat := 0
  stages : Objects Stage := ∅
  pipelines : Objects Pipeline := ∅
  components : Objects Component := ∅
  imageStreams : Objects ImageStream := ∅
  releaseJobs : Objects ReleaseJob := ∅
  roles : Objects Role := ∅
  roleBindings : Objects RoleBinding := ∅
  namespaces : NameSet := ∅
  /-- Spaces with the accounts that they are for. -/
  spaces : Dict String String := ∅
  projects : NameSet := ∅
  /-- The successful patches of stages, with the stages' names. -/
  stageWrites : List (String × StageWrite) := []
  /-- Operations whose next request is to fail. -/
  failures : List Operation := []

namespace Cluster

/-- The text of a version number. -/
def versionText (revision : Nat) : String := String.ofList (Nat.toDigits 10 revision)

/-- The version of the next object to be written. -/
def nextVersion (c : Cluster) : String := versionText (c.revision + 1)

/-- The cluster with one more write counted. -/
def counted (c : Cluster) : Cluster := { c with revision := c.revision + 1 }

/-- The failure that was asked for. -/
def injectedFault (o : Operation) : Error :=
  .client (.refused
    { status := "Failure"
      message := "injected failure in " ++ o.name
      reason := "InternalError"
      code := 500 })

/-- The operations that can be made to fail once. -/
def failable : List Operation :=
  [.listStages, .patchStageStatus, .patchStageFinalizers, .createImageStream, .replaceImageStream,
    .createReleaseJob, .createNamespace, .deleteNamespace, .deleteProject, .getRole]

def failNext (o : Operation) (c : Cluster) : Cluster :=
  if c.failures.contains o then c else { c with failures := o :: c.failures }

end Cluster

end Conveyor
