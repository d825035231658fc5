import Conveyor.Proofs.Cleanup
import Conveyor.Proofs.Versions

/-!
Work on copies that may be out of date. Between the reading of a stage and the write that goes by
it, anybody may have changed the stage, removed it or put another one in its place. A write of
finalizers names the version of the copy, so it either meets the finalizers that it was made from or
it is refused. No finalizer is lost that way, whoever has set it.
-/

namespace Conveyor

open Session Cluster

variable {F : Error → Prop} {c c' : Cluster}

namespace Stage

variable {s : Stage}

/-! ### What the writes of finalizers ask for -/

theorem ensureFinalizer_of_mem (h : s.hasFinalizer = true) : s.ensureFinalizer = pure false := by
  have hadd : Finalizers.add? s.metadata.finalizers finalizer = none := if_pos h
  simp only [ensureFinalizer, hadd]

theorem ensureFinalizer_of_not_mem (h : s.hasFinalizer = false) :
    s.ensureFinalizer = s.writeFinalizers (s.finalizers ++ [finalizer]) >>= fun _ => pure true := by
  have hadd : Finalizers.add? s.metadata.finalizers finalizer =
      some (s.finalizers ++ [finalizer]) := if_neg (Bool.eq_false_iff.1 h)
  simp only [ensureFinalizer, hadd]

theorem releaseFinalizer_of_mem (h : s.hasFinalizer = true) :
    s.releaseFinalizer = s.writeFinalizers s.otherFinalizers := by
  have hremove : Finalizers.remove? s.metadata.finalizers finalizer = some s.otherFinalizers :=
    if_pos h
  simp only [releaseFinalizer, hremove]

theorem releaseFinalizer_of_not_mem (h : s.hasFinalizer = false) : s.releaseFinalizer = pure () := by
  have hremove : Finalizers.remove? s.metadata.finalizers finalizer = none :=
    if_neg (Bool.eq_false_iff.1 h)
  simp only [releaseFinalizer, hremove]

/-! ### How they end -/

/-- How it ends when the stage that was read as `s` under the key is to get other finalizers. A
failure of whatever sort changes no stage. Otherwise the stored stage has had the metadata of the
copy, finalizers included, and it has the new ones now; under deletion it goes when these are none.
-/
inductive PatchesFinalizers (F : Error → Prop) (key : ObjectKey) (s : Stage)
    (finalizers : List String) (c : Cluster) : Except Error Unit → Cluster → Prop where
  | failed {c' : Cluster} {e : Error} (he : F e) (same : c'.stages = c.stages) :
      PatchesFinalizers F key s finalizers c (.error e) c'
  | missing {c' : Cluster} (absent : c.stages.get? key = none) (same : c'.stages = c.stages) :
      PatchesFinalizers F key s finalizers c
        (.error (.notFound Kind.stage.name key.namespaceName key.name)) c'
  | outdated {c' : Cluster} {t : Stage} (stored : c.stages.get? key = some t)
      (changed : t.metadata.resourceVersion ≠ s.metadata.resourceVersion)
      (same : c'.stages = c.stages) :
      PatchesFinalizers F key s finalizers c (.error (.conflict Kind.stage.name key.name)) c'
  | written {c' : Cluster} {t : Stage} (stored : c.stages.get? key = some t)
      (unchanged : t.metadata = s.metadata)
      (kept : (finalizers.isEmpty && t.isBeingDeleted) = false)
      (after : c'.stages = c.stages.insert key
        { t with metadata := { t.metadata with
          finalizers := some finalizers
          resourceVersion := some c.nextVersion } }) :
      PatchesFinalizers F key s finalizers c (.ok ()) c'
  | removed {c' : Cluster} {t : Stage} (stored : c.stages.get? key = some t)
      (unchanged : t.metadata = s.metadata) (last : finalizers = [])
      (deleted : t.isBeingDeleted = true) (after : c'.stages = c.stages.erase key) :
      PatchesFinalizers F key s finalizers c (.ok ()) c'

theorem ensures_writeFinalizers (h : c.Remembers s) (finalizers : List String) :
    (s.writeFinalizers finalizers).Ensures F c (PatchesFinalizers F s.key s finalizers c) := by
  refine ensures_request.2 ⟨fun e he => .failed he rfl, ?_⟩
  have hserve : c.serve (.patchStageFinalizers s.namespaceName s.name s.metadata.resourceVersion
      finalizers) = c.patchFinalizers s.key s.metadata.resourceVersion finalizers := rfl
  rw [hserve]
  cases ht : c.stages.get? s.key with
  | none =>
      rw [patchFinalizers_of_absent _ _ ht]
      exact .missing ht rfl
  | some t =>
      by_cases hversion : t.metadata.resourceVersion = s.metadata.resourceVersion
      · have hsame : t.metadata = s.metadata := (h.current t ht hversion).1
        rw [← hversion]
        cases hlast : finalizers.isEmpty && t.isBeingDeleted with
        | false =>
            rw [patchFinalizers_of_kept ht hlast]
            exact .written ht hsame hlast rfl
        | true =>
            obtain ⟨hnone, hdeleted⟩ := Bool.and_eq_true_iff.1 hlast
            obtain rfl := List.isEmpty_iff.1 hnone
            rw [patchFinalizers_of_last ht hdeleted]
            exact .removed ht hsame rfl hdeleted rfl
      · obtain ⟨version, hsome⟩ := Option.isSome_iff_exists.1 h.version
        rw [hsome] at hversion ⊢
        rw [patchFinalizers_of_outdated _ ht hversion]
        exact .outdated ht (hsome ▸ hversion) rfl

/-- Pending failures are no matter of stages. -/
theorem PatchesFinalizers.of_calm {key : ObjectKey} {finalizers : List String}
    {r : Except Error Unit} (h : PatchesFinalizers F key s finalizers c.calm r c'.calm) :
    PatchesFinalizers F key s finalizers c r c' := by
  cases h with
  | failed he same => exact .failed he same
  | missing absent same => exact .missing absent same
  | outdated stored changed same => exact .outdated stored changed same
  | written stored unchanged kept after => exact .written stored unchanged kept after
  | removed stored unchanged last deleted after => exact .removed stored unchanged last deleted after

end Stage

open Stage in
/-- **No finalizer is lost**, however old the copy is that a write goes by. The copy `s` was read
from a reachable cluster, and the cluster has gone on since, with writers of all sorts. To put the
operator's finalizer on is to append it to the stored list, and to take it off leaves the others in
their order; both find the list as it is in the copy, or they change no stage and tell of the
failure. Where the copy asks for no change, nothing is written at all. -/
theorem finalizers_survive {c₀ : Cluster} (h₀ : c₀.Reachable) {key : ObjectKey} {s : Stage}
    (hs : c₀.stages.get? key = some s) {o : ObservedCluster} (hlater : c₀.Leads o.cluster)
    (ho : o.FailsWith F) :
    let ensured := s.ensureFinalizer.run ObservedCluster.client o
    let released := s.releaseFinalizer.run ObservedCluster.client o
    (s.hasFinalizer = true → ensured = (.ok false, o) ∧
      PatchesFinalizers F key s (s.finalizers.filter (· ≠ finalizer)) o.cluster released.1
        released.2.cluster) ∧
    (s.hasFinalizer = false → released = (.ok (), o) ∧
      ∃ r, ensured.1 = r.map (fun _ => true) ∧
        PatchesFinalizers F key s (s.finalizers ++ [finalizer]) o.cluster r
          ensured.2.cluster) := by
  intro ensured released
  obtain rfl : s.key = key := h₀.coherent.stages key s hs
  have hremembers := (hlater.remembers h₀ hs).calm
  constructor
  · intro hfin
    constructor
    · simp only [ensured, ensureFinalizer_of_mem hfin]
      rfl
    · simp only [released, releaseFinalizer_of_mem hfin]
      exact (ObservedCluster.run_of_ensures ho (ensures_writeFinalizers hremembers _)).of_calm
  · intro hfin
    constructor
    · simp only [released, releaseFinalizer_of_not_mem hfin]
      rfl
    · simp only [ensured, ensureFinalizer_of_not_mem hfin]
      have hwrite : (s.writeFinalizers (s.finalizers ++ [finalizer]) >>= fun _ => pure true).Ensures
          F o.cluster.calm fun b c' => ∃ r, b = r.map (fun _ => true) ∧ PatchesFinalizers F s.key s
            (s.finalizers ++ [finalizer]) o.cluster.calm r c' :=
        (ensures_writeFinalizers hremembers _).bind (fun u c' h => ⟨_, rfl, h⟩)
          fun e c' h => ⟨_, rfl, h⟩
      obtain ⟨r, hr, h⟩ := ObservedCluster.run_of_ensures ho hwrite
      exact ⟨r, hr, h.of_calm⟩

open Sample Stage in
/-- A stage with a finalizer of another controller is read, once with the operator's finalizer beside
it and once without. After a patch of the status the finalizer comes off and leaves the other one;
after a patch of the owners it stays on; after a reconcile it does not go on again. -/
theorem finalizer_of_other_survives :
    let held : Stage := { stage "dev" 0 with metadata.finalizers := some ["backup", finalizer] }
    let c := (({} : World).run [.insertStage held]).cluster
    let s : Stage := Resource.stored held "edp" (versionText 1)
    let reported : ObservedCluster := ⟨(c.answer (.patchStageStatus "edp" "dev" {})).2, [], [], []⟩
    let adopted : ObservedCluster :=
      ⟨(reported.cluster.answer (.patchStageOwnership "edp" "dev" [] ∅)).2, [], [], []⟩
    let early := s.releaseFinalizer.run ObservedCluster.client reported
    let late := s.releaseFinalizer.run ObservedCluster.client adopted
    let bare : Stage := { stage "dev" 0 with metadata.finalizers := some ["backup"] }
    let w := ({} : World).run [.insertStage bare]
    let t : Stage := Resource.stored bare "edp" (versionText 1)
    let reconciled := (w.run [.reconcile .epoch (key "dev")]).observed
    let again := t.ensureFinalizer.run ObservedCluster.client reconciled
    (PatchesFinalizers NoFailure (key "dev") s ["backup"] reported.cluster early.1
        early.2.cluster ∧ early.1.isOk = true ∧
      PatchesFinalizers NoFailure (key "dev") s ["backup"] adopted.cluster late.1
        late.2.cluster ∧ late.1.isOk = false) ∧
    ∃ r, again.1 = r.map (fun _ => true) ∧ r.isOk = false ∧
      PatchesFinalizers NoFailure (key "dev") t ["backup", finalizer] reconciled.cluster r
        again.2.cluster := by
  intro held c s reported adopted early late bare w t reconciled again
  constructor
  · have hs : c.stages.get? (key "dev") = some s := by decide +kernel
    have hreported : c.Leads reported.cluster := .single (.answer c _)
    have hadopted : c.Leads adopted.cluster := hreported.tail (.answer _ _)
    have hfin : s.hasFinalizer = true := by decide
    have hreachable := World.reachable_run [.insertStage held]
    refine ⟨?_, by decide +kernel, ?_, by decide +kernel⟩
    · exact ((finalizers_survive hreachable hs hreported (by decide)).1 hfin).2
    · exact ((finalizers_survive hreachable hs hadopted (by decide)).1 hfin).2
  · have ht : w.cluster.stages.get? (key "dev") = some t := by decide +kernel
    have hlater : w.cluster.Leads reconciled.cluster := w.leads_run [.reconcile .epoch (key "dev")]
    have hquiet : reconciled.FailsWith NoFailure := by decide +kernel
    have hrefused : again.1.isOk = false := by decide +kernel
    obtain ⟨-, r, hr, hpatches⟩ := (finalizers_survive (World.reachable_run [.insertStage bare]) ht
      hlater hquiet).2 (by decide)
    have hr : again.1 = r.map (fun _ => true) := hr
    rw [hr] at hrefused
    refine ⟨r, hr, ?_, hpatches⟩
    cases r with
    | ok u => exact hrefused
    | error e => rfl

end Conveyor
