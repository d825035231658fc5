import Conveyor.Proofs.Footprint
import Conveyor.Proofs.Reachable

/-!
The deletion of a stage as one step of the cluster. The state that a deletion is found in is read
off the stored siblings, and everything else hangs on that state: only in `finalizing` is anything
written at all, and of the stages only the deleted one.
-/

namespace Conveyor

namespace Cluster

theorem mem_stagesOf {namespaceName : String} {c : Cluster} {b : Stage} :
    b ∈ c.stagesOf namespaceName ↔
      ∃ k, c.stages.get? k = some b ∧ k.namespaceName = namespaceName := by
  constructor
  · intro h
    obtain ⟨⟨k, b⟩, he, rfl⟩ := List.mem_map.1 h
    obtain ⟨hmem, hk⟩ := List.mem_filter.1 he
    exact ⟨k, Dict.mem_toList.1 hmem, of_decide_eq_true hk⟩
  · rintro ⟨k, hb, rfl⟩
    refine List.mem_map.2 ⟨(k, b), List.mem_filter.2 ⟨Dict.mem_toList.2 hb, ?_⟩, rfl⟩
    exact decide_eq_true rfl

/-- The stages of a pipeline in a namespace. -/
def members (home pipeline : String) (c : Cluster) : List Stage :=
  (c.stagesOf home).filter (·.pipelineName = pipeline)

theorem Coherent.mem_members {c : Cluster} (h : c.Coherent) {home pipeline : String} {b : Stage} :
    b ∈ c.members home pipeline ↔
      c.stages.get? b.key = some b ∧ b.namespaceName = home ∧ b.pipelineName = pipeline := by
  rw [members, List.mem_filter, mem_stagesOf]
  constructor
  · rintro ⟨⟨k, hb, hk⟩, hp⟩
    have hkey : b.key = k := h.stages k b hb
    refine ⟨hkey ▸ hb, ?_, of_decide_eq_true hp⟩
    rw [← hk, ← hkey]
    rfl
  · rintro ⟨hb, hn, hp⟩
    exact ⟨⟨b.key, hb, hn⟩, decide_eq_true hp⟩

/-- Stages of a pipeline are told apart by their keys. -/
theorem Coherent.eq_of_key_eq {c : Cluster} (h : c.Coherent) {home pipeline : String} {a b : Stage}
    (ha : a ∈ c.members home pipeline) (hb : b ∈ c.members home pipeline) (hkey : a.key = b.key) :
    a = b := by
  have hstored := (h.mem_members.1 ha).1
  rw [hkey, (h.mem_members.1 hb).1] at hstored
  exact (Option.some.inj hstored).symm

/-- The siblings that a stage sees are the stored stages of its namespace and of the pipeline. -/
theorem Coherent.mem_siblings {c : Cluster} (h : c.Coherent) {s b : Stage} {pipeline : String} :
    b ∈ c.siblings s pipeline ↔
      c.stages.get? b.key = some b ∧ b.namespaceName = s.namespaceName ∧
        b.pipelineName = pipeline := h.mem_members

end Cluster

/-! ### Dependents -/

namespace Stage

theorem waitsFor_eq_true {a b : Stage} :
    a.waitsFor b = true ↔ b.name ≠ a.name ∧
      (a.spec.order < b.spec.order ∨
        b.spec.order = a.spec.order ∧ b.isBeingDeleted = false) := by
  simp [waitsFor]

/-- The siblings that are no dependents: those that come before, and those at the same place that
are being deleted themselves. -/
theorem waitsFor_eq_false {a b : Stage} (hname : b.name ≠ a.name) :
    a.waitsFor b = false ↔
      b.spec.order < a.spec.order ∨ b.spec.order = a.spec.order ∧ b.isBeingDeleted = true := by
  rw [← Bool.not_eq_true, waitsFor_eq_true]
  cases b.isBeingDeleted <;> simp [hname] <;> omega

theorem hasDependents_eq_true {s : Stage} {siblings : List Stage} :
    s.hasDependents siblings = true ↔ ∃ b ∈ siblings, s.waitsFor b = true := List.any_eq_true

theorem hasDependents_eq_false {s : Stage} {siblings : List Stage} :
    s.hasDependents siblings = false ↔ ∀ b ∈ siblings, s.waitsFor b = false := by
  simp [hasDependents]

theorem deletionState_eq_finalizing {s : Stage} {siblings : List Stage} :
    s.deletionState siblings = .finalizing ↔
      s.isBeingDeleted = true ∧ s.hasFinalizer = true ∧ s.hasDependents siblings = false := by
  unfold deletionState
  cases s.isBeingDeleted <;> cases s.hasFinalizer <;> cases s.hasDependents siblings <;> simp

theorem deletionState_eq_pending {s : Stage} {siblings : List Stage}
    (hdeleted : s.isBeingDeleted = true) (hfin : s.hasFinalizer = true)
    (hdep : s.hasDependents siblings = true) :
    s.deletionState siblings = .pendingDependents := by
  simp [deletionState, hdeleted, hfin, hdep]

end Stage

/-! ### The rules -/

open Session

/-- What a reconcile answers when the deletion was found in a state. -/
def DeletionState.action : DeletionState → Action
  | .pendingDependents => .requeue Stage.dependentDelay
  | .active | .finalizing | .gone => .awaitChange

namespace Stage

variable {F : Error → Prop} {c : Cluster}

/-- Advancing a deletion is one look at the siblings, and in `finalizing` the cleanup and the
release of the finalizer. -/
theorem ensures_advanceDeletion {config : Config} {s : Stage}
    {Q : Except Error DeletionState → Cluster → Prop} (state : DeletionState)
    (hstate : s.deletionState (c.siblings s s.pipelineName) = state)
    (fault : ∀ e, F e → Q (.error e) c) (stay : state ≠ .finalizing → Q (.ok state) c)
    (finalize : state = .finalizing →
      (deprovision config s >>= fun _ => s.releaseFinalizer).Ensures F c fun r c' =>
        Q (r.map fun _ => .finalizing) c') :
    (s.advanceDeletion config).Ensures F c Q := by
  unfold advanceDeletion
  refine (s.reads_siblings _).ensures_bind (fun siblings hs => ?_) (fun e he => ?_)
  · cases hs
    dsimp only
    rw [hstate]
    refine ensures_ite (fun h => ?_) stay
    subst h
    have h := finalize rfl
    rw [← bind_assoc]
    exact h.bind (fun _ _ h => h) fun _ _ h => h
  · rcases he with he | he
    · cases he
    · exact fault e he

theorem ensures_reconcileDeletion {config : Config} {s : Stage}
    {Q : Except Error Action → Cluster → Prop}
    (h : (s.advanceDeletion config).Ensures F c fun r c' => Q (r.map DeletionState.action) c') :
    (s.reconcileDeletion config).Ensures F c Q := by
  unfold reconcileDeletion
  refine ensures_attempt_bind.2 (h.mono fun r c' hr => ?_)
  cases r with
  | error e => exact hr
  | ok state => cases state <;> exact hr

/-- Cleaning up and releasing the finalizer concern no stage but the deleted one. -/
theorem ensures_finalize_frame (config : Config) (s : Stage) :
    (deprovision config s >>= fun _ => s.releaseFinalizer).Ensures F c fun _ c' =>
      ∀ k, k ≠ s.key → c'.stages.get? k = c.stages.get? k := by
  have hspare : (deprovision config s).Ensures F c fun _ c' => c'.stages = c.stages :=
    (asks_deprovision config s).ensures_stages (by decide)
  refine hspare.bind (fun _ c' hc' => ?_) fun e c' hc' k _ => by rw [hc']
  unfold releaseFinalizer
  split
  · intro k _
    rw [hc']
  · refine ensures_request.2 ⟨fun e _ k _ => by rw [hc'], fun k hk => ?_⟩
    rw [← hc']
    exact Cluster.get?_stages_patchFinalizers hk _ _ c'

/-- A deletion that is not found in `finalizing` changes nothing, and only its look-up can fail. In
`finalizing` no other stage is touched. -/
theorem ensures_reconcileDeletion_frame (config : Config) (s : Stage) :
    (s.reconcileDeletion config).Ensures F c fun r c' =>
      (∀ k, k ≠ s.key → c'.stages.get? k = c.stages.get? k) ∧
        (s.deletionState (c.siblings s s.pipelineName) ≠ .finalizing →
          c' = c ∧ (r = .ok (s.deletionState (c.siblings s s.pipelineName)).action ∨
            ∃ e, r = .error e ∧ F e)) := by
  refine ensures_reconcileDeletion (ensures_advanceDeletion _ rfl (fun e he => ?_) (fun h => ?_)
    fun h => ?_)
  · exact ⟨fun k _ => rfl, fun _ => ⟨rfl, .inr ⟨e, rfl, he⟩⟩⟩
  · exact ⟨fun k _ => rfl, fun _ => ⟨rfl, .inl rfl⟩⟩
  · exact (ensures_finalize_frame config s).mono fun r c' hc' => ⟨hc', fun hne => absurd h hne⟩

end Stage

end Conveyor
