import Conveyor.Proofs.Cleanup
import Conveyor.Proofs.Supplies

/-!
The end of a deletion that nothing stands in the way of. Without failures on the way one reconcile
lets the stage go, whatever was provisioned for it before, provided that the cleanup finds all that
the stage consumes. Where a look-up finds nothing, the reconcile fails with that and changes
nothing, for all look-ups come before the first write.

A stream is written back in the version that it was read in. So the cleanup cannot retire the
environment from one stream twice, which `Cluster.RetiresApart` rules out.
-/

namespace Conveyor

open Session
open Promotion (Consumed KeyOf)

namespace Cluster

/-- No stream that the deletion of the stage has to retire the environment from is consumed for two
inputs. -/
def RetiresApart (s : Stage) (c : Cluster) : Prop :=
  ∀ env ds, c.retirement s = .ok (env, ds) →
    ds.Pairwise fun d e => d.stream.needsRetiring env = true → e.stream ≠ d.stream

end Cluster

/-! ### The streams -/

theorem Retires.codebase {env : String} {K : ObjectKey → Prop} {before after : Objects ImageStream}
    (h : Retires env K before after) (k : ObjectKey) :
    (after.get? k).map (·.spec.codebase) = (before.get? k).map (·.spec.codebase) := by
  rcases h k with hsame | ⟨-, x, version, hx, -, hretired⟩
  · rw [hsame]
  · rw [hretired, hx]
    rfl

namespace Retirement

variable {c : Cluster} {s : Stage}

/-- The environment is retired from all streams, since each of them is still what was read when its
turn comes. -/
theorem ensures_each_retireFrom_apart {env namespaceName : String} {ds : List Consumed}
    (hds : ∀ d ∈ ds, c.imageStreams.get? (Cluster.keyIn namespaceName d.stream) = some d.stream)
    (hapart : ds.Pairwise fun d e => d.stream.needsRetiring env = true → e.stream ≠ d.stream) :
    (each ds fun d => retireFrom namespaceName env d.stream).Ensures NoFailure c fun r c' =>
      r = .ok () ∧ After c c' env (KeyOf namespaceName ds) := by
  refine ensures_each (I := fun rest c' => After c c' env (KeyOf namespaceName ds) ∧
    (∀ d ∈ rest, d ∈ ds) ∧
    (rest.Pairwise fun d e => d.stream.needsRetiring env = true → e.stream ≠ d.stream) ∧
    ∀ d ∈ rest, c'.imageStreams.get? (Cluster.keyIn namespaceName d.stream) = some d.stream)
    ?round ?stop ⟨After.refl c env _, fun d hd => hd, hapart, hds⟩
  case round =>
    rintro a rest c' ⟨hafter, hmem, hpairs, hcurrent⟩
    obtain ⟨ha, hmem⟩ := List.forall_mem_cons.1 hmem
    obtain ⟨hother, hpairs⟩ := List.pairwise_cons.1 hpairs
    obtain ⟨hstored, hcurrent⟩ := List.forall_mem_cons.1 hcurrent
    unfold retireFrom
    refine ensures_ite (fun hneeds => ?_) fun _ => ⟨hafter, hmem, hpairs, hcurrent⟩
    refine ensures_requestFor.2 ⟨fun e he => he.elim, ?_⟩
    have hserve : c'.serve (.replaceImageStream namespaceName (a.stream.retire env)) =
        (.ok (), c'.wrote Cluster.imageStreamShelf (Cluster.keyIn namespaceName a.stream)
          (Resource.versioned (a.stream.retire env) (some c'.nextVersion))) :=
      Cluster.replace_of_current hstored rfl
    simp only [hserve]
    refine ⟨hafter.insert ⟨a, ha, rfl⟩ (hds a ha) hneeds, hmem, hpairs, fun d hd => ?_⟩
    -- Another stream was read at another key, so it is still there.
    have hkey : Cluster.keyIn namespaceName d.stream ≠ Cluster.keyIn namespaceName a.stream := by
      intro hkey
      have hsame := hds d (hmem d hd)
      rw [hkey, hds a ha] at hsame
      exact hother d hd hneeds (Option.some.inj hsame).symm
    exact (Dict.get?_insert_of_ne _ _ hkey).trans (hcurrent d hd)
  case stop =>
    rintro c' ⟨hafter, -⟩
    exact ⟨rfl, hafter⟩

theorem ensures_deleteEnvironmentLabels_apart (hc : c.Coherent) {env : String} {ds : List Consumed}
    (hds : c.retirement s = .ok (env, ds)) (hapart : c.RetiresApart s) :
    (deleteEnvironmentLabels s).Ensures NoFailure c fun r c' =>
      r = .ok () ∧ After c c' env (KeyOf s.namespaceName ds) :=
  ensures_deleteEnvironmentLabels_of_resolved hds
    (ensures_each_retireFrom_apart (hc.stored_of_retirement hds) (hapart _ _ hds))

end Retirement

/-! ### The whole reconcile -/

namespace Stage

variable {c : Cluster} {s : Stage}

/-- The stage is let go. Of the rest only namespaces and what streams tell of environments have
changed. -/
structure Finalized (s : Stage) (c c' : Cluster) : Prop where
  letGo : s.LetGo c'
  others : ∀ k, k ≠ s.key → c'.stages.get? k = c.stages.get? k
  pipelines : c'.pipelines = c.pipelines
  codebases : ∀ k, c'.codebaseAt k = c.codebaseAt k

/-- **A deletion in `finalizing` gets to its end** when all that the stage consumes is there. -/
theorem ensures_reconcile_finalizing (config : Config) (now : Timestamp) (hc : c.Coherent)
    (hs : c.stages.get? s.key = some s) (hdeleted : s.isBeingDeleted = true)
    (hfin : s.hasFinalizer = true) (hfree : s.hasDependents (c.siblings s s.pipelineName) = false)
    {p : Pipeline} (hp : c.Supplies s p) (hapart : c.RetiresApart s) :
    (s.reconcile config now).Ensures NoFailure c fun r c' =>
      r = .ok .awaitChange ∧ s.Finalized c c' := by
  have hstate := deletionState_eq_finalizing.2 ⟨hdeleted, hfin, hfree⟩
  obtain ⟨⟨env, ds⟩, hds⟩ := Cluster.exists_retirement.2 ⟨p, hp⟩
  have hdeletion : (s.reconcileDeletion config).Ensures NoFailure c fun r c' =>
      r = .ok .awaitChange ∧ s.LetGo c' ∧ c'.pipelines = c.pipelines ∧
        ∀ k, c'.codebaseAt k = c.codebaseAt k := by
    refine ensures_reconcileDeletion (ensures_advanceDeletion _ hstate (fun e he => he.elim)
      (fun hne => absurd rfl hne) fun _ => ?_)
    rw [Target.deprovision_eq, bind_assoc]
    refine (Retirement.ensures_deleteEnvironmentLabels_apart hc hds hapart).bind ?_ ?_
    · rintro u c₁ ⟨-, ⟨streams, n, rfl⟩, hretires⟩
      refine (Target.ensures_removal config s fun e he => he.elim).bind ?_ ?_
      · rintro u' c₂ ⟨⟨namespaces, projects, rfl⟩, -⟩
        refine Ensures.mono (ensures_releaseFinalizer ?stored hdeleted hfin) ?_
        case stored => exact hs
        rintro r c₃ ⟨⟨stages, n', writes, rfl⟩, hr⟩
        cases r with
        | ok u => exact ⟨rfl, hr, rfl, fun k => hretires.codebase k⟩
        | error e => exact hr.2.elim fun _ he => he.elim
      · rintro e c₂ ⟨-, e', he⟩
        exact he.elim
    · rintro e c₁ ⟨he, -⟩
      exact absurd he error_ne_ok
  simp only [reconcile, hdeleted, if_true]
  refine ((ensures_reconcileDeletion_frame config s).and hdeletion).mono ?_
  rintro r c' ⟨⟨hothers, -⟩, hr, hletGo, hpipelines, hcodebases⟩
  exact ⟨hr, hletGo, hothers, hpipelines, hcodebases⟩

/-- Where something is missing, the reconcile fails with that and leaves everything as it is. -/
theorem ensures_reconcile_unsupplied (config : Config) (now : Timestamp)
    (hdeleted : s.isBeingDeleted = true) (hfin : s.hasFinalizer = true)
    (hfree : s.hasDependents (c.siblings s s.pipelineName) = false) {e : Error}
    (h : c.retirement s = .error e) :
    (s.reconcile config now).Ensures NoFailure c fun r c' => r = .error e ∧ c' = c := by
  have hstate := deletionState_eq_finalizing.2 ⟨hdeleted, hfin, hfree⟩
  simp only [reconcile, hdeleted, if_true]
  refine ensures_reconcileDeletion (ensures_advanceDeletion _ hstate (fun e he => he.elim)
    (fun hne => absurd rfl hne) fun _ => ?_)
  rw [Target.deprovision_eq, bind_assoc]
  refine (Retirement.ensures_deleteEnvironmentLabels_unsupplied h).bind ?_ ?_
  · rintro u c' ⟨hok, -⟩
    exact absurd hok.symm error_ne_ok
  · rintro e' c' ⟨he, rfl⟩
    cases he
    exact ⟨rfl, rfl⟩

end Stage

namespace World

/-- **A deletion that nothing stands in the way of.** The stored copy of a deleted stage that has
the finalizer and no dependents is reconciled without failures. Whatever was provisioned for it
before, the finalizer goes, if all that the stage consumes is there and nothing has to be retired
from one stream twice. If something is missing, the reconcile fails with that and changes nothing.
-/
theorem deletion_completes {w : World} (hw : w.cluster.Reachable)
    (hquiet : w.observed.FailsWith NoFailure) {key : ObjectKey} {s : Stage}
    (hs : w.cluster.stages.get? key = some s) (hdeleted : s.isBeingDeleted = true)
    (hfin : s.hasFinalizer = true)
    (hfree : s.hasDependents (w.cluster.siblings s s.pipelineName) = false) (now : Timestamp) :
    let after := w.apply (.reconcile now key)
    (∀ p, w.cluster.Supplies s p → w.cluster.RetiresApart s →
      w.answer now key = some (.ok .awaitChange) ∧
        (after.cluster.stages.get? key = none ∧ s.otherFinalizers = [] ∨
          ∃ b, after.cluster.stages.get? key = some b ∧ b.finalizers = s.otherFinalizers)) ∧
    ((∀ p, ¬ w.cluster.Supplies s p) →
      ∃ e, w.cluster.retirement s = .error e ∧ w.answer now key = some (.error e) ∧
        after.cluster = w.cluster) := by
  intro after
  obtain rfl : s.key = key := hw.coherent.stages key s hs
  constructor
  · intro p hp hapart
    obtain ⟨-, r, hr, rfl, hfinalized⟩ := answer_of_ensures hquiet hs
      (Stage.ensures_reconcile_finalizing w.config now hw.coherent hs hdeleted hfin hfree hp hapart)
    exact ⟨hr, hfinalized.letGo.finalizers⟩
  · intro hmissing
    cases h : w.cluster.retirement s with
    | ok r =>
        obtain ⟨p, hp⟩ := Cluster.exists_retirement.1 ⟨r, h⟩
        exact absurd hp (hmissing p)
    | error e =>
        obtain ⟨-, r, hr, rfl, hsame⟩ := answer_of_ensures hquiet hs
          (Stage.ensures_reconcile_unsupplied w.config now hdeleted hfin hfree h)
        exact ⟨e, rfl, hr, hsame⟩

open Sample in
/-- A provisioned stage is gone with its deletion. -/
theorem deletion_completes_of_provisioned_stage :
    let w := ({} : World).run stageLeaving
    let after := w.apply (.reconcile .epoch (key "dev"))
    ∃ s, w.cluster.stages.get? (key "dev") = some s ∧
      w.answer .epoch (key "dev") = some (.ok .awaitChange) ∧
      (after.cluster.stages.get? (key "dev") = none ∧ s.otherFinalizers = [] ∨
        ∃ b, after.cluster.stages.get? (key "dev") = some b ∧
          b.finalizers = s.otherFinalizers) := by
  intro w after
  obtain ⟨hquiet, hstored⟩ : w.observed.FailsWith NoFailure ∧
      ((w.cluster.stages.get? (key "dev")).any fun s => s.isBeingDeleted && s.hasFinalizer &&
        !s.hasDependents (w.cluster.siblings s s.pipelineName) &&
        (w.cluster.retirement s).toOption.any fun r => r.2.length == 1) = true := by
    decide +kernel
  obtain ⟨s, hs, hsample⟩ := (Option.any_eq_true ..).1 hstored
  simp only [Bool.and_eq_true, Bool.not_eq_true', Option.any_eq_true] at hsample
  obtain ⟨⟨⟨hdeleted, hfin⟩, hfree⟩, ⟨env, ds⟩, hds, hone⟩ := hsample
  have hds : w.cluster.retirement s = .ok (env, ds) := by
    cases h : w.cluster.retirement s with
    | error e =>
        rw [h] at hds
        cases hds
    | ok r =>
        rw [h] at hds
        exact congrArg Except.ok (Option.some.inj hds)
  obtain ⟨p, hp⟩ := Cluster.exists_retirement.1 ⟨_, hds⟩
  have hapart : w.cluster.RetiresApart s := by
    intro env' ds' h
    rw [hds] at h
    cases h
    obtain ⟨d, rfl⟩ := List.length_eq_one_iff.1 (eq_of_beq hone)
    exact List.pairwise_singleton _ d
  obtain ⟨hanswer, hgone⟩ :=
    (deletion_completes (reachable_run _) hquiet hs hdeleted hfin hfree .epoch).1 p hp hapart
  exact ⟨s, hs, hanswer, hgone⟩

open Sample in
/-- A stage whose pipeline was never there keeps the finalizer, though nothing depends on it and
nothing was provisioned for it. -/
theorem deletion_fails_without_pipeline :
    let w := ({} : World).run strayStageLeaving
    let after := w.apply (.reconcile .epoch (key "dev"))
    (∃ s, w.cluster.stages.get? (key "dev") = some s ∧ s.isBeingDeleted = true ∧
      s.hasFinalizer = true ∧ s.hasDependents (w.cluster.siblings s s.pipelineName) = false) ∧
    w.observed.scripts.isEmpty = true ∧ w.cluster.failures = [] ∧
    w.answer .epoch (key "dev") = some (.error (.notFound "CDPipeline" "edp" "mobile")) ∧
    ∃ b, after.cluster.stages.get? (key "dev") = some b ∧ b.hasFinalizer = true := by
  intro w after
  obtain ⟨hstored, hscripts, hfailures, hanswer, hleft⟩ :
      ((w.cluster.stages.get? (key "dev")).any fun s => s.isBeingDeleted && s.hasFinalizer &&
        !s.hasDependents (w.cluster.siblings s s.pipelineName)) = true ∧
      w.observed.scripts.isEmpty = true ∧ w.cluster.failures = [] ∧
      w.answer .epoch (key "dev") = some (.error (.notFound "CDPipeline" "edp" "mobile")) ∧
      (after.cluster.stages.get? (key "dev")).any Stage.hasFinalizer = true := by
    decide +kernel
  obtain ⟨s, hs, hsample⟩ := (Option.any_eq_true ..).1 hstored
  simp only [Bool.and_eq_true, Bool.not_eq_true'] at hsample
  obtain ⟨⟨hdeleted, hfin⟩, hfree⟩ := hsample
  exact ⟨⟨s, hs, hdeleted, hfin, hfree⟩, hscripts, hfailures, hanswer,
    (Option.any_eq_true ..).1 hleft⟩

end World

end Conveyor
