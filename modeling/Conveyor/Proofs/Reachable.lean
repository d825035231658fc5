import Conveyor.Proofs.Faults
import Conveyor.Proofs.Store

/-!
The states of the cluster in memory: what can be reached from the empty cluster by arranging objects
and by requests of any kind, failing ones included. In all of them an object lies under its own name
(`Cluster.Coherent`), which is what the look-ups of the operator rely on when they write an object
back.
-/

namespace Conveyor

/-- The key that a stage is stored under. -/
def Stage.key (s : Stage) : ObjectKey := ⟨s.namespaceName, s.name⟩

namespace Objects

variable {α : Type} {P : ObjectKey → α → Prop}

/-- All objects satisfy a property that may speak of their keys. -/
def All (P : ObjectKey → α → Prop) (os : Objects α) : Prop := ∀ k a, os.get? k = some a → P k a

theorem all_empty : All P (∅ : Objects α) := by
  intro k a h
  simp at h

theorem All.insert {os : Objects α} (h : All P os) {k : ObjectKey} {a : α} (ha : P k a) :
    All P (os.insert k a) := by
  intro l b hb
  rw [Dict.get?_insert] at hb
  split at hb
  · next hkl =>
    cases hb
    exact hkl ▸ ha
  · exact h l b hb

theorem All.erase {os : Objects α} (h : All P os) (k : ObjectKey) : All P (os.erase k) := by
  intro l b hb
  rw [Dict.get?_erase] at hb
  split at hb
  · cases hb
  · exact h l b hb

variable [Resource α]

/-- Every object lies under its own name. -/
def Filed (os : Objects α) : Prop := All (fun k a => (Resource.metadata a).nameOrEmpty = k.name) os

/-- An object that was looked up is written back to where it was. -/
theorem Filed.keyIn_eq {os : Objects α} (h : Filed os) {namespaceName name : String} {a : α}
    (ha : os.get? ⟨namespaceName, name⟩ = some a) :
    Cluster.keyIn namespaceName a = ⟨namespaceName, name⟩ := by
  simp only [Cluster.keyIn, h _ a ha]

theorem Filed.insert_stored {os : Objects α} (h : Filed os) (namespaceName version : String)
    (a : α) :
    Filed (os.insert (Cluster.keyIn namespaceName a)
      (Resource.stored a namespaceName version)) := by
  refine All.insert h ?_
  simp [Resource.stored, Cluster.keyIn, Metadata.nameOrEmpty]

end Objects

namespace Cluster

/-- All objects lie where their names say. -/
structure Coherent (c : Cluster) : Prop where
  stages : Objects.All (fun k s => s.key = k) c.stages
  pipelines : Objects.Filed c.pipelines
  components : Objects.Filed c.components
  imageStreams : Objects.Filed c.imageStreams
  releaseJobs : Objects.Filed c.releaseJobs
  roles : Objects.Filed c.roles
  roleBindings : Objects.Filed c.roleBindings

theorem coherent_empty : ({} : Cluster).Coherent where
  stages := Objects.all_empty
  pipelines := Objects.all_empty
  components := Objects.all_empty
  imageStreams := Objects.all_empty
  releaseJobs := Objects.all_empty
  roles := Objects.all_empty
  roleBindings := Objects.all_empty

/-- Counters, namespaces and pending failures are no matter of coherence. -/
theorem Coherent.congr {c d : Cluster} (h : c.Coherent) (stages : d.stages = c.stages)
    (pipelines : d.pipelines = c.pipelines) (components : d.components = c.components)
    (imageStreams : d.imageStreams = c.imageStreams) (releaseJobs : d.releaseJobs = c.releaseJobs)
    (roles : d.roles = c.roles) (roleBindings : d.roleBindings = c.roleBindings) :
    d.Coherent where
  stages := stages ▸ h.stages
  pipelines := pipelines ▸ h.pipelines
  components := components ▸ h.components
  imageStreams := imageStreams ▸ h.imageStreams
  releaseJobs := releaseJobs ▸ h.releaseJobs
  roles := roles ▸ h.roles
  roleBindings := roleBindings ▸ h.roleBindings

theorem Coherent.counted {c : Cluster} (h : c.Coherent) : c.counted.Coherent :=
  h.congr rfl rfl rfl rfl rfl rfl rfl

theorem Coherent.withFailures {c : Cluster} (h : c.Coherent) (os : List Operation) :
    (c.withFailures os).Coherent :=
  h.congr rfl rfl rfl rfl rfl rfl rfl

theorem Coherent.calm {c : Cluster} (h : c.Coherent) : c.calm.Coherent := h.withFailures []

theorem Coherent.insertStage {c : Cluster} (h : c.Coherent) (s : Stage) :
    (c.insertStage s).Coherent :=
  { h.counted with stages := h.stages.insert rfl }

/-! ### What requests keep

Creating and replacing either just count, or put the object where its name says. A patch of a stage
leaves the stage where it is. -/

section

variable {α : Type} [Resource α]

theorem Coherent.create {c : Cluster} (h : c.Coherent) (shelf : Shelf α)
    (hget : Objects.Filed (shelf.get c))
    (hset : ∀ os, Objects.Filed os → (shelf.set c.counted os).Coherent) (namespaceName : String)
    (a : α) : (c.create shelf namespaceName a).2.Coherent := by
  rcases create_snd shelf namespaceName a c with hc | hc
  · rw [hc]
    exact h.counted
  · rw [hc]
    exact hset _ (hget.insert_stored namespaceName _ a)

theorem Coherent.replace {c : Cluster} (h : c.Coherent) (shelf : Shelf α)
    (hget : Objects.Filed (shelf.get c))
    (hset : ∀ os, Objects.Filed os → (shelf.set c.counted os).Coherent) (namespaceName : String)
    (a : α) : (c.replace shelf namespaceName a).2.Coherent := by
  rcases replace_snd shelf namespaceName a c with hc | hc
  · rw [hc]
    exact h.counted
  · rw [hc]
    refine hset _ (Objects.All.insert hget ?_)
    simp [keyIn, Resource.versioned, Metadata.nameOrEmpty]

end

theorem Coherent.patchStatus {c : Cluster} (h : c.Coherent) (key : ObjectKey)
    (status : StageStatus) : (c.patchStatus key status).2.Coherent := by
  unfold Cluster.patchStatus
  split
  · exact h
  · next s hs =>
    split
    · exact h
    · exact { h with stages := h.stages.insert (h.stages key s hs) }

theorem Coherent.patchFinalizers {c : Cluster} (h : c.Coherent) (key : ObjectKey)
    (version : Option String) (finalizers : List String) :
    (c.patchFinalizers key version finalizers).2.Coherent := by
  unfold Cluster.patchFinalizers
  split
  · exact h.counted
  · next s hs =>
    split
    · split
      · exact { h.counted with stages := h.stages.erase key }
      · exact { h.counted with stages := h.stages.insert (h.stages key s hs) }
    · exact h.counted

theorem Coherent.patchOwnership {c : Cluster} (h : c.Coherent) (key : ObjectKey)
    (owners : List OwnerReference) (labels : Dict String String) :
    (c.patchOwnership key owners labels).2.Coherent := by
  unfold Cluster.patchOwnership
  split
  · exact h.counted
  · next s hs => exact { h.counted with stages := h.stages.insert (h.stages key s hs) }

theorem Coherent.serve {c : Cluster} (h : c.Coherent) (r : Request) : (c.serve r).2.Coherent := by
  cases r with
  | patchStageStatus => exact h.patchStatus ..
  | patchStageFinalizers => exact h.patchFinalizers ..
  | patchStageOwnership => exact h.patchOwnership ..
  | createImageStream =>
      exact h.create imageStreamShelf h.imageStreams
        (fun _ k => { h.counted with imageStreams := k }) ..
  | replaceImageStream =>
      exact h.replace imageStreamShelf h.imageStreams
        (fun _ k => { h.counted with imageStreams := k }) ..
  | createReleaseJob =>
      exact h.create releaseJobShelf h.releaseJobs
        (fun _ k => { h.counted with releaseJobs := k }) ..
  | replaceReleaseJob =>
      exact h.replace releaseJobShelf h.releaseJobs
        (fun _ k => { h.counted with releaseJobs := k }) ..
  | createRole => exact h.create roleShelf h.roles (fun _ k => { h.counted with roles := k }) ..
  | createRoleBinding =>
      exact h.create roleBindingShelf h.roleBindings
        (fun _ k => { h.counted with roleBindings := k }) ..
  | createNamespace | deleteNamespace | createSpace | createProject | deleteProject =>
      simp only [Cluster.serve, Cluster.createNamespace, Cluster.deleteNamespace,
        Cluster.createSpace, Cluster.createProject, Cluster.deleteProject]
      split <;> exact h.congr rfl rfl rfl rfl rfl rfl rfl
  | _ => exact h

theorem Coherent.answer {c : Cluster} (h : c.Coherent) (r : Request) :
    (c.answer r).2.Coherent := by
  by_cases hr : r.operation ∈ c.failures
  · rw [answer_of_mem hr]
    exact h.withFailures _
  · rw [answer_of_not_mem hr]
    exact h.serve r

/-- No session can make a cluster incoherent. -/
theorem Coherent.ensures {β : Type} {F : Error → Prop} {c : Cluster} (h : c.Coherent)
    (p : Session β) : p.Ensures F c fun _ c' => c'.Coherent :=
  p.asks_true.ensures (fun r _ _ hd => hd.serve r) h

/-! ### Reachable clusters -/

/-- The clusters that arranging objects and making requests can lead to. -/
inductive Reachable : Cluster → Prop where
  | empty : Reachable {}
  | insertStage {c : Cluster} (h : Reachable c) (s : Stage) : Reachable (c.insertStage s)
  | insertPipeline {c : Cluster} (h : Reachable c) (namespaceName : String) (p : Pipeline) :
      Reachable (c.insert pipelineShelf namespaceName p)
  | insertComponent {c : Cluster} (h : Reachable c) (namespaceName : String) (o : Component) :
      Reachable (c.insert componentShelf namespaceName o)
  | insertImageStream {c : Cluster} (h : Reachable c) (namespaceName : String) (s : ImageStream) :
      Reachable (c.insert imageStreamShelf namespaceName s)
  | insertRole {c : Cluster} (h : Reachable c) (namespaceName : String) (r : Role) :
      Reachable (c.insert roleShelf namespaceName r)
  | insertNamespace {c : Cluster} (h : Reachable c) (name : String) :
      Reachable (c.insertNamespace name)
  | failNext {c : Cluster} (h : Reachable c) (o : Operation) : Reachable (c.failNext o)
  | answer {c : Cluster} (h : Reachable c) (r : Request) : Reachable (c.answer r).2

theorem Reachable.coherent {c : Cluster} (h : c.Reachable) : c.Coherent := by
  induction h with
  | empty => exact coherent_empty
  | insertStage _ s ih => exact ih.insertStage s
  | insertPipeline _ namespaceName p ih =>
      exact { ih.counted with pipelines := ih.pipelines.insert_stored namespaceName _ p }
  | insertComponent _ namespaceName o ih =>
      exact { ih.counted with components := ih.components.insert_stored namespaceName _ o }
  | insertImageStream _ namespaceName s ih =>
      exact { ih.counted with imageStreams := ih.imageStreams.insert_stored namespaceName _ s }
  | insertRole _ namespaceName r ih =>
      exact { ih.counted with roles := ih.roles.insert_stored namespaceName _ r }
  | insertNamespace _ name ih => exact ih.congr rfl rfl rfl rfl rfl rfl rfl
  | failNext _ o ih =>
      unfold Cluster.failNext
      split
      · exact ih
      · exact ih.withFailures _
  | answer _ r ih => exact ih.answer r

theorem Reachable.run {α : Type} (p : Session α) {c : Cluster} (h : c.Reachable) :
    (p.run client c).2.Reachable := by
  induction p generalizing c with
  | done result => exact h
  | call r next ih => exact ih _ (h.answer r)
  | announce n next ih => exact ih h

end Cluster

end Conveyor
