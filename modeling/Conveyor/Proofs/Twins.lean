import Conveyor.Proofs.Predecessors
import Conveyor.Proofs.Statuses

/-!
Clusters that look the same to a stage. A reconcile of a stage looks into the stage's own namespace
and at its target, and nowhere else. Two clusters are twins for a stage when what there is to be
seen in these places is the same, apart from dates of statuses and from versions: each version goes
by another name in the second cluster.

The other names have to be good for the whole of a reconcile, which writes objects under new
versions and hands versions back to the store for comparison. So they are given by one function
`ρ` that takes the versions to come of the first cluster to those of the second one, and that never
gives one name to two versions. Then each request is answered in both clusters alike, and leaves
twins behind (`Served`).
-/

namespace Conveyor

/-! ### Pairs of dictionaries -/

namespace Dict

variable {κ α β : Type} [KeyOrder κ] {P : κ → Prop} {R : α → β → Prop} {d : Dict κ α} {e : Dict κ β}

/-- At the keys in question there are related values in both, or there is none in either. -/
def Paired (P : κ → Prop) (R : α → β → Prop) (d : Dict κ α) (e : Dict κ β) : Prop :=
  ∀ k, P k → Option.Rel R (d.get? k) (e.get? k)

/-- At one key the two have values, or they have none. -/
theorem Paired.cases (h : d.Paired P R e) {k : κ} (hk : P k) :
    (d.get? k = none ∧ e.get? k = none) ∨ ∃ a b, d.get? k = some a ∧ e.get? k = some b ∧ R a b := by
  have hrel := h k hk
  generalize d.get? k = x at hrel
  generalize e.get? k = y at hrel
  cases hrel with
  | none => exact .inl ⟨rfl, rfl⟩
  | some hab => exact .inr ⟨_, _, rfl, rfl, hab⟩

theorem Paired.contains_eq (h : d.Paired P R e) {k : κ} (hk : P k) :
    e.contains k = d.contains k := by
  rcases h.cases hk with ⟨hd, he⟩ | ⟨a, b, hd, he, -⟩ <;> simp only [contains, hd, he] <;> rfl

theorem Paired.get?_eq {d e : Dict κ α} (h : d.Paired P Eq e) {k : κ} (hk : P k) :
    d.get? k = e.get? k := by
  rcases h.cases hk with ⟨hd, he⟩ | ⟨a, b, hd, he, rfl⟩ <;> rw [hd, he]

variable [DecidableEq κ]

theorem Paired.insert (h : d.Paired P R e) (l : κ) {a : α} {b : β} (hab : R a b) :
    (d.insert l a).Paired P R (e.insert l b) := by
  intro k hk
  rw [get?_insert, get?_insert]
  split
  · exact .some hab
  · exact h k hk

theorem Paired.erase (h : d.Paired P R e) (l : κ) : (d.erase l).Paired P R (e.erase l) := by
  intro k hk
  rw [get?_erase, get?_erase]
  split
  · exact .none
  · exact h k hk

end Dict

/-- A choice of keys leaves the other keys of an ascending list as they are. -/
theorem Entries.get?_filter {κ α : Type} [KeyOrder κ] (p : κ → Bool) {es : List (κ × α)}
    (h : Ascending es) (k : κ) :
    get? k (es.filter (p ·.1)) = if p k = true then get? k es else none := by
  refine Option.ext fun a => ?_
  by_cases hk : p k = true
  · rw [if_pos hk]
    refine ⟨fun ha => ?_, fun ha => ?_⟩
    · exact get?_of_mem h (List.mem_filter.1 (mem_of_get? ha)).1
    · exact get?_of_mem (e := (k, a)) (h.filter _) (List.mem_filter.2 ⟨mem_of_get? ha, hk⟩)
  · rw [if_neg hk]
    exact ⟨fun ha => absurd (List.mem_filter.1 (mem_of_get? ha)).2 hk, fun ha => nomatch ha⟩

/-! ### Other names of versions -/

namespace Resource

variable {α : Type} [Resource α] {ρ : String → String}

/-- The object under the other name of its version. -/
def renamed (ρ : String → String) (a : α) : α :=
  versioned a ((metadata a).resourceVersion.map ρ)

theorem unversioned_renamed (a : α) : unversioned (renamed ρ a) = unversioned a :=
  unversioned_versioned a _

theorem renamed_stored (a : α) (namespaceName version : String) :
    renamed ρ (stored a namespaceName version) = stored a namespaceName (ρ version) := by
  simp [renamed, versioned, stored]

theorem versioned_renamed (a : α) (version : Option String) :
    versioned (renamed ρ a) version = versioned a version := by
  simp [renamed, versioned]

theorem renamed_versioned (a : α) (version : String) :
    renamed ρ (versioned a (some version)) = versioned a (some (ρ version)) := by
  simp [renamed, versioned]

theorem keyIn_renamed (namespaceName : String) (a : α) :
    Cluster.keyIn namespaceName (renamed ρ a) = Cluster.keyIn namespaceName a := by
  simp [Cluster.keyIn, renamed, versioned, Metadata.nameOrEmpty]

theorem resourceVersion_renamed (a : α) :
    (metadata (renamed ρ a)).resourceVersion = (metadata a).resourceVersion.map ρ := by
  simp [renamed, versioned]

end Resource

open Resource (renamed unversioned)

/-- Different versions have different names, so nothing is seen in a comparison. -/
theorem Cluster.versionMatches_map {ρ : String → String} (hρ : Function.Injective ρ)
    (given stored : Option String) :
    versionMatches (given.map ρ) (stored.map ρ) = versionMatches given stored := by
  cases given <;> cases stored <;> simp [versionMatches, hρ.eq_iff]

namespace Stage

/-- Where a stage and all that it consumes and publishes is stored. -/
def AtHome (s : Stage) (k : ObjectKey) : Prop := k.namespaceName = s.namespaceName

theorem atHome_key (s : Stage) : s.AtHome s.key := rfl

/-- Where access to the target of a stage is stored. -/
def AtTarget (s : Stage) (k : ObjectKey) : Prop := k.namespaceName = s.targetNamespace

/-- The second stage is the first one under the other name of its version, with the same status at
another time perhaps. -/
structure Twin (ρ : String → String) (a b : Stage) : Prop where
  metadata : b.metadata = { a.metadata with resourceVersion := a.metadata.resourceVersion.map ρ }
  spec : b.spec = a.spec
  status : b.status.map StageStatus.undated = a.status.map StageStatus.undated

variable {ρ : String → String} {a b : Stage}

theorem Twin.identity (h : Twin ρ a b) : b.identity = a.identity := by
  obtain ⟨metadata, spec, status⟩ := b
  obtain ⟨rfl, rfl, -⟩ := h
  rfl

theorem Twin.isBeingDeleted (h : Twin ρ a b) : b.isBeingDeleted = a.isBeingDeleted :=
  isBeingDeleted_of_identity h.identity

theorem Twin.content (h : Twin ρ a b) : b.content = a.content := by
  obtain ⟨metadata, spec, status⟩ := b
  obtain ⟨rfl, rfl, hstatus⟩ := h
  exact congrArg (Stage.mk _ _) hstatus

end Stage

namespace Cluster

/-- What the stage can see of the two clusters is the same, apart from the names of versions and the
dates of statuses, and the versions to come have their other names too. -/
structure Twins (ρ : String → String) (s : Stage) (c c' : Cluster) : Prop where
  stages : c.stages.Paired s.AtHome (Stage.Twin ρ) c'.stages
  pipelines : c.pipelines.Paired s.AtHome Eq c'.pipelines
  components : c.components.Paired s.AtHome Eq c'.components
  imageStreams : c.imageStreams.Paired s.AtHome (fun x y => y = renamed ρ x) c'.imageStreams
  releaseJobs : c.releaseJobs.Paired s.AtHome (fun x y => y = renamed ρ x) c'.releaseJobs
  roles : c.roles.Paired s.AtTarget (fun x y => unversioned y = unversioned x) c'.roles
  roleBindings :
    c.roleBindings.Paired s.AtTarget (fun x y => unversioned y = unversioned x) c'.roleBindings
  namespaces : c.namespaces.Paired (· = s.targetNamespace) Eq c'.namespaces
  spaces : c.spaces.Paired (· = s.targetNamespace) Eq c'.spaces
  projects : c.projects.Paired (· = s.targetNamespace) Eq c'.projects
  next : ∀ i, ρ (versionText (c.revision + 1 + i)) = versionText (c'.revision + 1 + i)

end Cluster

/-- Two ways to end that come to the same: with related results, or with one failure. -/
inductive SameEnd {α β : Type} (R : α → β → Prop) : Except Error α → Except Error β → Prop
  | ok {a : α} {b : β} (h : R a b) : SameEnd R (.ok a) (.ok b)
  | error (e : Error) : SameEnd R (.error e) (.error e)

theorem SameEnd.eq {α : Type} {x y : Except Error α} (h : SameEnd Eq x y) : x = y := by
  cases h with
  | ok h => rw [h]
  | error e => rfl

namespace Cluster

open Cluster

variable {ρ : String → String} {s : Stage} {c c' : Cluster} {α β : Type}

theorem Twins.nextVersion (h : Twins ρ s c c') : ρ c.nextVersion = c'.nextVersion := h.next 0

theorem Twins.counted (h : Twins ρ s c c') : Twins ρ s c.counted c'.counted :=
  { h with
    next := fun i => by
      have hcounted (d : Cluster) : d.revision + 1 + (i + 1) = d.counted.revision + 1 + i :=
        Nat.add_right_comm (d.revision + 1) i 1
      have hnext := h.next (i + 1)
      rwa [hcounted, hcounted] at hnext }

/-- A request has been answered alike in two clusters. They are twins still, and the same writes of
stages have been noted. -/
structure Served (ρ : String → String) (s : Stage) (R : α → β → Prop) (c c' : Cluster)
    (x : Except Error α × Cluster) (y : Except Error β × Cluster) : Prop where
  answer : SameEnd R x.1 y.1
  twins : Twins ρ s x.2 y.2
  writes : ∃ ws, x.2.stageWrites = c.stageWrites ++ ws ∧ y.2.stageWrites = c'.stageWrites ++ ws

theorem Twins.found (h : Twins ρ s c c') {R : α → β → Prop} {a : α} {b : β} (hab : R a b) :
    Served ρ s R c c' (.ok a, c) (.ok b, c') :=
  ⟨.ok hab, h, [], (List.append_nil _).symm, (List.append_nil _).symm⟩

/-- A refusal that counts as a write and one that does not. -/
theorem Twins.refused (h : Twins ρ s c c') {R : α → β → Prop} (e : Error) :
    Served ρ s R c c' (.error e, c) (.error e, c') :=
  ⟨.error e, h, [], (List.append_nil _).symm, (List.append_nil _).symm⟩

theorem Twins.refused_counted (h : Twins ρ s c c') {R : α → β → Prop} (e : Error) :
    Served ρ s R c c' (.error e, c.counted) (.error e, c'.counted) :=
  ⟨.error e, h.counted, [], (List.append_nil _).symm, (List.append_nil _).symm⟩

/-- A write that notes nothing about stages. -/
theorem Twins.written {d d' : Cluster} (h : Twins ρ s d d')
    (hwrites : d.stageWrites = c.stageWrites) (hwrites' : d'.stageWrites = c'.stageWrites) :
    Served ρ s Eq c c' (.ok (), d) (.ok (), d') :=
  ⟨.ok rfl, h, [], hwrites.trans (List.append_nil _).symm, hwrites'.trans (List.append_nil _).symm⟩

/-! ### Objects -/

section

variable [Resource α] {shelf : Shelf α} {P : ObjectKey → Prop} {R : α → α → Prop} {n : String}
  {a : α}

/-- An object is made in both clusters, or it is there in both. -/
theorem Twins.create (h : Twins ρ s c c') (hpaired : (shelf.get c).Paired P R (shelf.get c'))
    (hP : P (keyIn n a))
    (hR : R (Resource.stored a n c.nextVersion) (Resource.stored a n c'.nextVersion))
    (hset : ∀ os os', os.Paired P R os' →
      Twins ρ s (shelf.set c.counted os) (shelf.set c'.counted os'))
    (hwrites : ∀ d os, (shelf.set d os).stageWrites = d.stageWrites) :
    Served ρ s Eq c c' (c.create shelf n a) (c'.create shelf n a) := by
  rcases hpaired.cases hP with ⟨hx, hy⟩ | ⟨x, y, hx, hy, -⟩
  · rw [create_of_absent hx, create_of_absent hy]
    exact (hset _ _ (hpaired.insert _ hR)).written (hwrites _ _) (hwrites _ _)
  · rw [create_of_present hx, create_of_present hy]
    exact h.refused_counted _

/-- An object is written back in both clusters, or it has been changed since in both. -/
theorem Twins.replace (hρ : Function.Injective ρ) (h : Twins ρ s c c')
    (hpaired : (shelf.get c).Paired P (fun x y => y = renamed ρ x) (shelf.get c'))
    (hP : P (keyIn n a))
    (hset : ∀ os os', os.Paired P (fun x y => y = renamed ρ x) os' →
      Twins ρ s (shelf.set c.counted os) (shelf.set c'.counted os'))
    (hwrites : ∀ d os, (shelf.set d os).stageWrites = d.stageWrites) :
    Served ρ s Eq c c' (c.replace shelf n a) (c'.replace shelf n (renamed ρ a)) := by
  have hnew : Resource.versioned (renamed ρ a) (some c'.nextVersion) =
      renamed ρ (Resource.versioned a (some c.nextVersion)) := by
    rw [Resource.versioned_renamed, Resource.renamed_versioned, h.nextVersion]
  unfold Cluster.replace
  simp only [Resource.keyIn_renamed]
  rcases hpaired.cases hP with ⟨hx, hy⟩ | ⟨x, y, hx, hy, rfl⟩
  · simp only [hx, hy]
    exact h.refused_counted _
  · simp only [hx, hy, Resource.resourceVersion_renamed, versionMatches_map hρ]
    split
    · exact (hset _ _ (hpaired.insert _ hnew)).written (hwrites _ _) (hwrites _ _)
    · exact h.refused_counted _

end

section

variable {n : String} (h : Twins ρ s c c')
include h

theorem Twins.createImageStream (hn : n = s.namespaceName) (x : ImageStream) :
    Served ρ s Eq c c' (c.create imageStreamShelf n x) (c'.create imageStreamShelf n x) :=
  h.create h.imageStreams hn (by rw [Resource.renamed_stored, h.nextVersion])
    (fun _ _ hos => { h.counted with imageStreams := hos }) fun _ _ => rfl

theorem Twins.createReleaseJob (hn : n = s.namespaceName) (j : ReleaseJob) :
    Served ρ s Eq c c' (c.create releaseJobShelf n j) (c'.create releaseJobShelf n j) :=
  h.create h.releaseJobs hn (by rw [Resource.renamed_stored, h.nextVersion])
    (fun _ _ hos => { h.counted with releaseJobs := hos }) fun _ _ => rfl

theorem Twins.createRole (hn : n = s.targetNamespace) (r : Role) :
    Served ρ s Eq c c' (c.create roleShelf n r) (c'.create roleShelf n r) :=
  h.create h.roles hn (by rw [Resource.unversioned_stored, Resource.unversioned_stored])
    (fun _ _ hos => { h.counted with roles := hos }) fun _ _ => rfl

theorem Twins.createRoleBinding (hn : n = s.targetNamespace) (b : RoleBinding) :
    Served ρ s Eq c c' (c.create roleBindingShelf n b) (c'.create roleBindingShelf n b) :=
  h.create h.roleBindings hn (by rw [Resource.unversioned_stored, Resource.unversioned_stored])
    (fun _ _ hos => { h.counted with roleBindings := hos }) fun _ _ => rfl

theorem Twins.replaceImageStream (hρ : Function.Injective ρ) (hn : n = s.namespaceName)
    (x : ImageStream) :
    Served ρ s Eq c c' (c.replace imageStreamShelf n x)
      (c'.replace imageStreamShelf n (renamed ρ x)) :=
  h.replace hρ h.imageStreams hn (fun _ _ hos => { h.counted with imageStreams := hos })
    fun _ _ => rfl

theorem Twins.replaceReleaseJob (hρ : Function.Injective ρ) (hn : n = s.namespaceName)
    (j : ReleaseJob) :
    Served ρ s Eq c c' (c.replace releaseJobShelf n j)
      (c'.replace releaseJobShelf n (renamed ρ j)) :=
  h.replace hρ h.releaseJobs hn (fun _ _ hos => { h.counted with releaseJobs := hos })
    fun _ _ => rfl

end

/-! ### Stages -/

section

variable {key : ObjectKey} (h : Twins ρ s c c') (hkey : s.AtHome key)
include h hkey

/-- Patches by the same status, of different times perhaps. -/
theorem Twins.patchStatus {status status' : StageStatus} {t t' : Timestamp}
    (hdated : status.lastTimeUpdated = some t) (hdated' : status'.lastTimeUpdated = some t')
    (hsame : status'.undated = status.undated) :
    Served ρ s Eq c c' (c.patchStatus key status) (c'.patchStatus key status') := by
  rcases h.stages.cases hkey with ⟨ha, hb⟩ | ⟨a, b, ha, hb, hab⟩
  · simp only [Cluster.patchStatus, ha, hb]
    exact h.refused _
  · rw [patchStatus_of_dated ha hdated, patchStatus_of_dated hb hdated']
    have hstages : (c.stages.insert key { a with status := some status }).Paired s.AtHome
        (Stage.Twin ρ) (c'.stages.insert key { b with status := some status' }) :=
      h.stages.insert key ⟨hab.metadata, hab.spec, congrArg some hsame⟩
    exact ⟨.ok rfl, { h with stages := hstages }, _, rfl, rfl⟩

/-- Patches of finalizers by one who has read the stage in either cluster. -/
theorem Twins.patchFinalizers (hρ : Function.Injective ρ) (version : Option String)
    (finalizers : List String) :
    Served ρ s Eq c c' (c.patchFinalizers key version finalizers)
      (c'.patchFinalizers key (version.map ρ) finalizers) := by
  rcases h.stages.cases hkey with ⟨ha, hb⟩ | ⟨a, b, ha, hb, hab⟩
  · rw [patchFinalizers_of_absent _ _ ha, patchFinalizers_of_absent _ _ hb]
    exact h.refused_counted _
  · have hversion : b.metadata.resourceVersion = a.metadata.resourceVersion.map ρ := by
      rw [hab.metadata]
    simp only [Cluster.patchFinalizers, ha, hb, hversion, versionMatches_map hρ,
      hab.isBeingDeleted]
    split
    · split
      · exact ⟨.ok rfl, { h.counted with stages := h.stages.erase key }, _, rfl, rfl⟩
      · refine ⟨.ok rfl, { h.counted with stages := h.stages.insert key ?_ }, _, rfl, rfl⟩
        exact ⟨by simp only [hab.metadata, Option.map_some, h.nextVersion], hab.spec, hab.status⟩
    · exact h.refused_counted _

theorem Twins.patchOwnership (owners : List OwnerReference) (labels : Dict String String) :
    Served ρ s Eq c c' (c.patchOwnership key owners labels)
      (c'.patchOwnership key owners labels) := by
  rcases h.stages.cases hkey with ⟨ha, hb⟩ | ⟨a, b, ha, hb, hab⟩
  · simp only [Cluster.patchOwnership, ha, hb]
    exact h.refused_counted _
  · rw [patchOwnership_of_stored ha, patchOwnership_of_stored hb]
    refine ⟨.ok rfl, { h.counted with stages := h.stages.insert key ?_ }, _, rfl, rfl⟩
    exact ⟨by simp only [hab.metadata, Option.map_some, h.nextVersion], hab.spec, hab.status⟩

end

/-- The stages of the namespace are listed in the same order. -/
theorem Twins.stagesOf (h : Twins ρ s c c') :
    (c'.stagesOf s.namespaceName).map Stage.identity =
      (c.stagesOf s.namespaceName).map Stage.identity := by
  have hlisted (d : Cluster) : (d.stagesOf s.namespaceName).map Stage.identity =
      ((d.stages.toList.map fun e => (e.1, e.2.identity)).filter
        fun e => decide (e.1.namespaceName = s.namespaceName)).map (·.2) := by
    simp only [Cluster.stagesOf, List.filter_map, List.map_map, Function.comp_def]
  have hascending (d : Cluster) :
      Entries.Ascending (d.stages.toList.map fun e => (e.1, e.2.identity)) :=
    List.pairwise_map.2 d.stages.ascending
  have hget (d : Cluster) (k : ObjectKey) :
      Entries.get? k ((d.stages.toList.map fun e => (e.1, e.2.identity)).filter
          fun e => decide (e.1.namespaceName = s.namespaceName)) =
        if decide (k.namespaceName = s.namespaceName) = true then
          (d.stages.get? k).map Stage.identity
        else none := by
    refine (Entries.get?_filter (fun k : ObjectKey => decide (k.namespaceName = s.namespaceName))
      (hascending d) k).trans ?_
    rw [Entries.get?_map]
    rfl
  rw [hlisted, hlisted]
  refine congrArg _ (Entries.eq_of_get? ((hascending _).filter _) ((hascending _).filter _)
    fun k => ?_)
  rw [hget, hget]
  split
  · next hk =>
    have hhome : k.namespaceName = s.namespaceName := of_decide_eq_true hk
    rcases h.stages.cases hhome with ⟨ha, hb⟩ | ⟨a, b, ha, hb, hab⟩
    · rw [ha, hb]
    · rw [ha, hb]
      exact congrArg some hab.identity
  · rfl

/-! ### The target -/

section

variable {name : String} (h : Twins ρ s c c') (hname : name = s.targetNamespace)
include h hname

theorem Twins.createNamespace :
    Served ρ s Eq c c' (c.createNamespace name) (c'.createNamespace name) := by
  simp only [Cluster.createNamespace, h.namespaces.contains_eq hname]
  split
  · exact h.refused _
  · exact Twins.written { h with namespaces := h.namespaces.insert name rfl } rfl rfl

theorem Twins.createSpace (account : String) :
    Served ρ s Eq c c' (c.createSpace name account) (c'.createSpace name account) := by
  simp only [Cluster.createSpace, h.spaces.contains_eq hname]
  split
  · exact h.refused _
  · exact Twins.written { h with
      spaces := h.spaces.insert name rfl, namespaces := h.namespaces.insert name rfl } rfl rfl

theorem Twins.createProject :
    Served ρ s Eq c c' (c.createProject name) (c'.createProject name) := by
  simp only [Cluster.createProject, h.projects.contains_eq hname]
  split
  · exact h.refused _
  · exact Twins.written { h with
      projects := h.projects.insert name rfl, namespaces := h.namespaces.insert name rfl } rfl rfl

theorem Twins.deleteNamespace :
    Served ρ s Eq c c' (c.deleteNamespace name) (c'.deleteNamespace name) := by
  simp only [Cluster.deleteNamespace, h.namespaces.contains_eq hname]
  split
  · exact Twins.written { h with namespaces := h.namespaces.erase name } rfl rfl
  · exact h.refused _

theorem Twins.deleteProject :
    Served ρ s Eq c c' (c.deleteProject name) (c'.deleteProject name) := by
  simp only [Cluster.deleteProject, h.projects.contains_eq hname]
  split
  · exact Twins.written { h with
      projects := h.projects.erase name, namespaces := h.namespaces.erase name } rfl rfl
  · exact h.refused _

end

end Cluster

end Conveyor
