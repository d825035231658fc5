import Conveyor.Proofs.Contents
import Conveyor.Proofs.Reading
import Conveyor.Reconcile

/-!
Which requests the parts of the operator make. Each part writes to its own things: the making of the
target to the namespaces, the publication to the image streams, and so on (`Part`). Provisioning
proper and its undoing never touch a stage; a reconcile of a live stage patches finalizers only to
lists that hold the operator's own, and it removes no namespace.
-/

namespace Conveyor

open Session

/-- What a request writes to. -/
inductive Part where
  | stages
  | imageStreams
  | releaseJobs
  /-- Roles and their bindings. -/
  | access
  /-- Namespaces, spaces and projects that are made. -/
  | places
  /-- Namespaces and projects that are removed. -/
  | removals
  deriving DecidableEq

namespace Request

def part : Request → Option Part
  | patchStageStatus .. | patchStageFinalizers .. | patchStageOwnership .. => some .stages
  | createImageStream .. | replaceImageStream .. => some .imageStreams
  | createReleaseJob .. | replaceReleaseJob .. => some .releaseJobs
  | createRole .. | createRoleBinding .. => some .access
  | createNamespace .. | createSpace .. | createProject .. => some .places
  | deleteNamespace .. | deleteProject .. => some .removals
  | _ => none

/-- The request is a look-up, or it writes to one of the parts. -/
def Within (ps : List Part) (r : Request) : Prop :=
  match r.part with
  | none => True
  | some p => p ∈ ps

/-- A patch of finalizers leaves the operator's own in the list. -/
def KeepsFinalizer : Request → Prop
  | .patchStageFinalizers _ _ _ finalizers => Stage.finalizer ∈ finalizers
  | _ => True

variable {ps qs : List Part} {r : Request}

theorem within_of_isRead (h : r.isRead = true) : r.Within ps := by
  cases r <;> trivial

theorem Within.mono (h : r.Within ps) (hps : ps ⊆ qs) : r.Within qs := by
  unfold Within at h ⊢
  split at h
  · trivial
  · exact hps h

theorem Within.part_ne (h : r.Within ps) {p : Part} (hp : p ∉ ps) : r.part ≠ some p := by
  intro hpart
  rw [Within, hpart] at h
  exact hp h

theorem keepsFinalizer_of_part_ne (h : r.part ≠ some .stages) : r.KeepsFinalizer := by
  cases r <;> trivial

end Request

open Request (Within)

namespace Session

variable {α : Type}

theorem Reads.asksWithin {p : Session α} {f : Cluster → Except Error α} (h : p.Reads f)
    (ps : List Part) : p.Asks (Within ps) :=
  h.asks.mono fun _ => Request.within_of_isRead

theorem Asks.wider {p : Session α} {ps qs : List Part} (h : p.Asks (Within ps)) (hps : ps ⊆ qs) :
    p.Asks (Within qs) :=
  h.mono fun _ hr => hr.mono hps

end Session

/-! ### Provisioning and its undoing -/

namespace Target

theorem asks_require (s : Stage) : (require s).Asks (Within []) := by
  refine asks_request_bind trivial fun found => ?_
  split <;> trivial

theorem asks_create {kind name : String} {p : Session Unit} (h : p.Asks (Within [.places])) :
    (create kind name p).Asks (Within [.places]) := asks_tolerate h

theorem asks_remove {kind name : String} {p : Session Unit} (h : p.Asks (Within [.removals])) :
    (remove kind name p).Asks (Within [.removals]) := asks_tolerate h

end Target

namespace Access

theorem asks_ensureRole (role : Role) : (ensureRole role).Asks (Within [.access]) :=
  asks_request_bind trivial fun _ =>
    asks_ite (fun _ => trivial) fun _ => asks_requestFor List.mem_cons_self

theorem asks_ensureBinding (binding : RoleBinding) :
    (ensureBinding binding).Asks (Within [.access]) :=
  asks_request_bind trivial fun _ =>
    asks_ite (fun _ => trivial) fun _ => asks_requestFor List.mem_cons_self

theorem asks_configure (config : Config) (s : Stage) :
    (configure config s).Asks (Within [.access]) :=
  (asks_ensureRole _).bind fun _ => asks_each asks_ensureBinding _

end Access

namespace Promotion

theorem asks_putVerified (namespaceName name : String) (spec : ImageStreamSpec) :
    (putVerified namespaceName name spec).Asks (Within [.imageStreams]) := by
  refine asks_request_bind trivial fun found => ?_
  split
  · exact asks_ite (fun _ => trivial) fun _ => asks_requestFor List.mem_cons_self
  · exact asks_requestFor List.mem_cons_self

theorem asks_promote (s : Stage) : (promote s).Asks (Within [.imageStreams]) :=
  ((reads_pipelineOf s).asksWithin _).bind fun pipeline =>
    ((reads_consumed s pipeline).asksWithin _).bind fun _ =>
      ((reads_registryUrl s.namespaceName).asksWithin _).bind fun _ =>
        asks_each (fun _ => asks_putVerified _ _ _) _

end Promotion

namespace ReleaseJob

theorem asks_put (s : Stage) : (put s).Asks (Within [.releaseJobs]) := by
  refine ((Promotion.reads_pipelineOf s).asksWithin _).bind fun pipeline => ?_
  refine asks_request_bind trivial fun found => ?_
  split
  · exact asks_requestFor List.mem_cons_self
  · exact asks_ite (fun _ => trivial) fun _ => asks_requestFor List.mem_cons_self

end ReleaseJob

theorem asks_provision (config : Config) (s : Stage) :
    (provision config s).Asks (Within [.places, .access, .imageStreams, .releaseJobs]) := by
  refine asks_each (fun step => ?_) _
  cases step with
  | delegateNamespace => trivial
  | checkNamespaceExists => exact (Target.asks_require s).wider (by simp)
  | putNamespace | putSpace | putProject =>
      exact (Target.asks_create (asks_request (P := Within _) List.mem_cons_self)).wider (by simp)
  | configureAccess => exact (Access.asks_configure config s).wider (by simp)
  | putImageStreams => exact (Promotion.asks_promote s).wider (by simp)
  | putReleaseJob => exact (ReleaseJob.asks_put s).wider (by simp)

theorem Retirement.asks_deleteEnvironmentLabels (s : Stage) :
    (deleteEnvironmentLabels s).Asks (Within [.imageStreams]) := by
  refine ((Promotion.reads_pipelineOf s).asksWithin _).bind fun pipeline => ?_
  refine ((Promotion.reads_consumed s pipeline).asksWithin _).bind fun ds => ?_
  refine asks_each (fun d => ?_) ds
  exact asks_ite (fun _ => asks_requestFor List.mem_cons_self) fun _ => asks_pure

theorem asks_deprovision (config : Config) (s : Stage) :
    (deprovision config s).Asks (Within [.imageStreams, .removals]) := by
  refine asks_each (fun step => ?_) _
  cases step with
  | deleteEnvironmentLabels =>
      exact (Retirement.asks_deleteEnvironmentLabels s).wider (by simp)
  | delegateNamespaceDeletion => trivial
  | deleteNamespace | deleteProject =>
      exact (Target.asks_remove (asks_request (P := Within _) List.mem_cons_self)).wider (by simp)

/-! ### Reconciling a live stage -/

namespace Stage

section

variable {P : Request → Prop} {s : Stage}

theorem asks_ensureFinalizer_of (patch : ∀ finalizers, finalizer ∈ finalizers →
      P (.patchStageFinalizers s.namespaceName s.name s.metadata.resourceVersion finalizers)) :
    s.ensureFinalizer.Asks P := by
  unfold ensureFinalizer Finalizers.add?
  dsimp only
  split
  · trivial
  · next finalizers h =>
    split at h
    · cases h
    · cases h
      exact (asks_request (patch _ (by simp))).bind fun _ => trivial

theorem asks_ensureOwnership_of (read : ∀ r : Request, r.isRead = true → P r)
    (patch : ∀ owners pipeline,
      P (.patchStageOwnership s.namespaceName s.name owners
        (.singleton pipelineLabelKey pipeline))) : s.ensureOwnership.Asks P := by
  refine ((Promotion.reads_pipelineOf s).asks.mono read).bind fun pipeline => ?_
  refine asks_ite (fun _ => trivial) fun _ => ?_
  exact Asks.bind (p := .done _) trivial fun owners => asks_request (patch owners _)

theorem asks_report_of {now : Timestamp}
    (patch : ∀ status, P (.patchStageStatus s.namespaceName s.name status))
    (result : Except Error Unit) : (s.report now result).Asks P := by
  have hwrite (status : StageStatus) : (s.writeStatus status).Asks P := asks_request (patch status)
  cases result with
  | ok u => exact (hwrite _).bind fun _ => asks_publish_bind trivial
  | error e => exact (hwrite _).attempt.bind fun _ => asks_publish_bind trivial

end

theorem asks_ensureFinalizer (s : Stage) :
    s.ensureFinalizer.Asks fun r => r.Within [.stages] ∧ r.KeepsFinalizer :=
  asks_ensureFinalizer_of fun _ h => ⟨List.mem_cons_self, h⟩

theorem asks_ensureOwnership (s : Stage) :
    s.ensureOwnership.Asks fun r => r.Within [.stages] ∧ r.KeepsFinalizer := by
  refine asks_ensureOwnership_of (fun r h => ?_) fun _ _ => ⟨List.mem_cons_self, trivial⟩
  refine ⟨Request.within_of_isRead h, Request.keepsFinalizer_of_part_ne ?_⟩
  exact (Request.within_of_isRead h).part_ne List.not_mem_nil

theorem asks_report (now : Timestamp) (s : Stage) (result : Except Error Unit) :
    (s.report now result).Asks fun r => r.Within [.stages] ∧ r.KeepsFinalizer :=
  asks_report_of (fun _ => ⟨List.mem_cons_self, trivial⟩) result

theorem asks_reconcile_of_live (config : Config) (now : Timestamp) {s : Stage}
    (h : s.isBeingDeleted = false) :
    (s.reconcile config now).Asks fun r =>
      r.Within [.stages, .places, .access, .imageStreams, .releaseJobs] ∧ r.KeepsFinalizer := by
  have hwider (r : Request) (hr : r.Within [.stages] ∧ r.KeepsFinalizer) :
      r.Within [.stages, .places, .access, .imageStreams, .releaseJobs] ∧ r.KeepsFinalizer :=
    ⟨hr.1.mono (by simp), hr.2⟩
  have hprovision : (provision config s).Asks fun r =>
      r.Within [.stages, .places, .access, .imageStreams, .releaseJobs] ∧ r.KeepsFinalizer := by
    refine (asks_provision config s).mono fun r hr => ⟨hr.mono (by simp), ?_⟩
    exact Request.keepsFinalizer_of_part_ne (hr.part_ne (by decide))
  simp only [reconcile, h, Bool.false_eq_true, if_false]
  refine (s.asks_ensureFinalizer.mono hwider).bind fun _ => ?_
  refine Asks.bind (Asks.attempt ?_) fun r => (s.asks_report now r).mono hwider
  exact (s.asks_ensureOwnership.mono hwider).bind fun _ => hprovision

end Stage

/-! ### What that means for the stored objects -/

namespace Cluster

/-- The cluster `c'` differs from `c` in one part, and perhaps in counters. -/
def ChangesIn : Part → Cluster → Cluster → Prop
  | .stages, c, c' =>
    ∃ stages n writes, c' = { c with stages, revision := n, stageWrites := writes }
  | .imageStreams, c, c' => ∃ imageStreams n, c' = { c with imageStreams, revision := n }
  | .releaseJobs, c, c' => ∃ releaseJobs n, c' = { c with releaseJobs, revision := n }
  | .access, c, c' => ∃ roles roleBindings n, c' = { c with roles, roleBindings, revision := n }
  | .places, c, c' | .removals, c, c' =>
    ∃ namespaces spaces projects, c' = { c with namespaces, spaces, projects }

theorem changesIn_create {α : Type} [Resource α] {p : Part} {shelf : Shelf α}
    {namespaceName : String} {a : α} {c : Cluster} (counted : ChangesIn p c c.counted)
    (set : ∀ os, ChangesIn p c (shelf.set c.counted os)) :
    ChangesIn p c (c.create shelf namespaceName a).2 := by
  rcases create_snd shelf namespaceName a c with h | h
  · exact h ▸ counted
  · exact h ▸ set _

theorem changesIn_replace {α : Type} [Resource α] {p : Part} {shelf : Shelf α}
    {namespaceName : String} {a : α} {c : Cluster} (counted : ChangesIn p c c.counted)
    (set : ∀ os, ChangesIn p c (shelf.set c.counted os)) :
    ChangesIn p c (c.replace shelf namespaceName a).2 := by
  rcases replace_snd shelf namespaceName a c with h | h
  · exact h ▸ counted
  · exact h ▸ set _

/-- **A request changes no part but its own.** -/
theorem changesIn_serve {r : Request} {p : Part} (h : r.part = some p) (c : Cluster) :
    ChangesIn p c (c.serve r).2 := by
  cases r with
  | patchStageStatus =>
      cases h
      simp only [serve, patchStatus]
      split
      · exact ⟨_, _, _, rfl⟩
      · split <;> exact ⟨_, _, _, rfl⟩
  | patchStageFinalizers =>
      cases h
      simp only [serve, patchFinalizers]
      split
      · exact ⟨_, _, _, rfl⟩
      · split
        · split <;> exact ⟨_, _, _, rfl⟩
        · exact ⟨_, _, _, rfl⟩
  | patchStageOwnership =>
      cases h
      simp only [serve, patchOwnership]
      split <;> exact ⟨_, _, _, rfl⟩
  | createImageStream | createReleaseJob =>
      cases h
      exact changesIn_create ⟨_, _, rfl⟩ fun _ => ⟨_, _, rfl⟩
  | replaceImageStream | replaceReleaseJob =>
      cases h
      exact changesIn_replace ⟨_, _, rfl⟩ fun _ => ⟨_, _, rfl⟩
  | createRole | createRoleBinding =>
      cases h
      exact changesIn_create ⟨_, _, _, rfl⟩ fun _ => ⟨_, _, _, rfl⟩
  | createNamespace | deleteNamespace | createSpace | createProject | deleteProject =>
      cases h
      simp only [serve, createNamespace, deleteNamespace, createSpace, createProject,
        deleteProject]
      split <;> exact ⟨_, _, _, rfl⟩
  | _ => cases h

theorem serve_of_part_eq_none {r : Request} (h : r.part = none) (c : Cluster) :
    (c.serve r).2 = c := by
  cases r <;> first | rfl | cases h

/-- The cluster with one part taken out of it, and the counters with that part. -/
def without : Part → Cluster → Cluster
  | .stages, c => { c with stages := ∅, revision := 0, stageWrites := [] }
  | .imageStreams, c => { c with imageStreams := ∅, revision := 0 }
  | .releaseJobs, c => { c with releaseJobs := ∅, revision := 0 }
  | .access, c => { c with roles := ∅, roleBindings := ∅, revision := 0 }
  | .places, c | .removals, c => { c with namespaces := ∅, spaces := ∅, projects := ∅ }

theorem ChangesIn.without_eq {p : Part} {c c' : Cluster} (h : ChangesIn p c c') :
    c'.without p = c.without p := by
  cases p with
  | imageStreams | releaseJobs =>
      obtain ⟨_, _, rfl⟩ := h
      rfl
  | stages | access | places | removals =>
      obtain ⟨_, _, _, rfl⟩ := h
      rfl

/-- What does not look at the part that a request writes to is the same after it. -/
theorem frame_serve {β : Type} (f : Cluster → β) {r : Request}
    (h : ∀ p, r.part = some p → ∀ d : Cluster, f (d.without p) = f d) (c : Cluster) :
    f (c.serve r).2 = f c := by
  cases hpart : r.part with
  | none => rw [serve_of_part_eq_none hpart]
  | some p => rw [← h p hpart, (changesIn_serve hpart c).without_eq, h p hpart]

theorem stages_serve {r : Request} (h : r.part ≠ some .stages) (c : Cluster) :
    (c.serve r).2.stages = c.stages :=
  frame_serve Cluster.stages (fun p hpart _ => by
    cases p with
    | stages => exact absurd hpart h
    | _ => rfl) c

theorem imageStreams_serve {r : Request} (h : r.part ≠ some .imageStreams) (c : Cluster) :
    (c.serve r).2.imageStreams = c.imageStreams :=
  frame_serve Cluster.imageStreams (fun p hpart _ => by
    cases p with
    | imageStreams => exact absurd hpart h
    | _ => rfl) c

theorem releaseJobs_serve {r : Request} (h : r.part ≠ some .releaseJobs) (c : Cluster) :
    (c.serve r).2.releaseJobs = c.releaseJobs :=
  frame_serve Cluster.releaseJobs (fun p hpart _ => by
    cases p with
    | releaseJobs => exact absurd hpart h
    | _ => rfl) c

theorem places_serve {r : Request} (h : r.part ≠ some .places) (h' : r.part ≠ some .removals)
    (c : Cluster) : (c.serve r).2.places = c.places :=
  frame_serve Cluster.places (fun p hpart _ => by
    cases p with
    | places => exact absurd hpart h
    | removals => exact absurd hpart h'
    | _ => rfl) c

/-- Roles and bindings are written by requests for access only. -/
theorem access_serve {r : Request} (h : r.part ≠ some .access) (c : Cluster) :
    (c.serve r).2.roles = c.roles ∧ (c.serve r).2.roleBindings = c.roleBindings :=
  Prod.mk.inj (frame_serve (fun d => (d.roles, d.roleBindings)) (fun p hpart _ => by
    cases p with
    | access => exact absurd hpart h
    | _ => rfl) c)

/-- No request writes a pipeline. -/
theorem pipelines_serve (r : Request) (c : Cluster) : (c.serve r).2.pipelines = c.pipelines :=
  frame_serve Cluster.pipelines (fun p _ _ => by cases p <;> rfl) c

/-- No request writes a component. -/
theorem components_serve (r : Request) (c : Cluster) : (c.serve r).2.components = c.components :=
  frame_serve Cluster.components (fun p _ _ => by cases p <;> rfl) c

/-- Every stored stage stays, and it keeps the finalizer that it holds. -/
def KeepsFinalizers (c c' : Cluster) : Prop :=
  ∀ k s, c.stages.get? k = some s →
    ∃ s', c'.stages.get? k = some s' ∧ (s.hasFinalizer = true → s'.hasFinalizer = true)

theorem KeepsFinalizers.refl (c : Cluster) : c.KeepsFinalizers c := fun _ s hs => ⟨s, hs, id⟩

theorem KeepsFinalizers.trans {c c' c'' : Cluster} (h : c.KeepsFinalizers c')
    (k : c'.KeepsFinalizers c'') : c.KeepsFinalizers c'' := by
  intro key s hs
  obtain ⟨s', hs', hfin⟩ := h key s hs
  obtain ⟨s'', hs'', hfin'⟩ := k key s' hs'
  exact ⟨s'', hs'', hfin' ∘ hfin⟩

/-- Putting a stage back with the finalizer it held is harmless to all stages. -/
theorem keepsFinalizers_of_insert {c c' : Cluster} {key : ObjectKey} {s t : Stage}
    (hs : c.stages.get? key = some s) (hc' : c'.stages = c.stages.insert key t)
    (ht : s.hasFinalizer = true → t.hasFinalizer = true) : c.KeepsFinalizers c' := by
  intro k u hu
  rw [hc', Dict.get?_insert]
  split
  · next h =>
    subst h
    rw [hs] at hu
    cases hu
    exact ⟨t, rfl, ht⟩
  · exact ⟨u, hu, id⟩

theorem keepsFinalizers_of_stages_eq {c c' : Cluster} (h : c'.stages = c.stages) :
    c.KeepsFinalizers c' := by
  intro k s hs
  exact ⟨s, h ▸ hs, id⟩

theorem keepsFinalizers_patchFinalizers {key : ObjectKey} {version : Option String}
    {finalizers : List String} (h : Stage.finalizer ∈ finalizers) (c : Cluster) :
    c.KeepsFinalizers (c.patchFinalizers key version finalizers).2 := by
  have hne : finalizers.isEmpty = false := by
    cases finalizers with
    | nil => cases h
    | cons f fs => rfl
  unfold patchFinalizers
  split
  · exact keepsFinalizers_of_stages_eq rfl
  · next s hs =>
    split
    · simp only [hne, Bool.false_and, Bool.false_eq_true, if_false]
      refine keepsFinalizers_of_insert hs rfl fun _ => ?_
      simpa [Stage.hasFinalizer, Stage.finalizers] using h
    · exact keepsFinalizers_of_stages_eq rfl

theorem keepsFinalizers_serve {r : Request} (h : r.KeepsFinalizer) (c : Cluster) :
    c.KeepsFinalizers (c.serve r).2 := by
  cases r with
  | patchStageStatus n m status =>
      simp only [serve, patchStatus]
      split
      · exact .refl c
      · next s hs =>
        split
        · exact .refl c
        · exact keepsFinalizers_of_insert hs rfl id
  | patchStageFinalizers => exact keepsFinalizers_patchFinalizers h c
  | patchStageOwnership n m owners labels =>
      simp only [serve, patchOwnership]
      split
      · exact keepsFinalizers_of_stages_eq rfl
      · next s hs => exact keepsFinalizers_of_insert hs rfl id
  | _ =>
      refine keepsFinalizers_of_stages_eq (stages_serve ?_ c)
      intro hpart
      cases hpart

end Cluster

/-! ### Sessions that keep away from a part -/

namespace Session

variable {α : Type} {F : Error → Prop} {c : Cluster} {ps : List Part} {p : Session α}

theorem ensures_pipelines (p : Session α) : p.Ensures F c fun _ c' => c'.pipelines = c.pipelines :=
  p.asks_true.ensures (fun r d _ hd => (Cluster.pipelines_serve r d).trans hd) rfl

theorem Asks.ensures_stages (h : p.Asks (Within ps)) (hps : .stages ∉ ps) :
    p.Ensures F c fun _ c' => c'.stages = c.stages :=
  h.ensures (fun _ d hr hd => (Cluster.stages_serve (hr.part_ne hps) d).trans hd) rfl

theorem Asks.ensures_imageStreams (h : p.Asks (Within ps)) (hps : .imageStreams ∉ ps) :
    p.Ensures F c fun _ c' => c'.imageStreams = c.imageStreams :=
  h.ensures (fun _ d hr hd => (Cluster.imageStreams_serve (hr.part_ne hps) d).trans hd) rfl

theorem Asks.ensures_places (h : p.Asks (Within ps)) (hplaces : .places ∉ ps)
    (hremovals : .removals ∉ ps) : p.Ensures F c fun _ c' => c'.places = c.places :=
  h.ensures (fun _ d hr hd =>
    (Cluster.places_serve (hr.part_ne hplaces) (hr.part_ne hremovals) d).trans hd) rfl

end Session

end Conveyor
