import Conveyor.Cluster.Observed
import Conveyor.Proofs.Session

/-!
Runs on the observed cluster as outcomes of sessions. The observed cluster lets requests fail in two
ways, by the store's own list of failures and by scripts. Both leave the objects alone, so what a
session ensures of the store under any failures holds of each run on the observed cluster.
-/

namespace Conveyor

/-- The failure says nothing about what is there: neither that something is missing nor that it is
there already. -/
def Error.IsOutage (e : Error) : Prop := e.isNotFound = false ∧ e.isAlreadyExists = false

instance (e : Error) : Decidable e.IsOutage := by unfold Error.IsOutage; infer_instance

/-- Nothing fails but for a fault of its own. -/
abbrev NoFailure : Error → Prop := fun _ => False

namespace Cluster

theorem isOutage_injectedFault (o : Operation) : (injectedFault o).IsOutage := by
  cases o <;> decide

/-! ### Pending failures

Serving a request neither reads nor changes the list of pending failures. -/

/-- The cluster with another list of pending failures. -/
def withFailures (os : List Operation) (c : Cluster) : Cluster := { c with failures := os }

/-- The cluster with no failure pending. -/
def calm (c : Cluster) : Cluster := c.withFailures []

@[simp] theorem withFailures_failures (c : Cluster) : c.withFailures c.failures = c := rfl

theorem create_withFailures {α : Type} [Resource α] (shelf : Shelf α) (os : List Operation)
    (hget : ∀ c, shelf.get (c.withFailures os) = shelf.get c)
    (hset : ∀ c objects,
      shelf.set (c.withFailures os) objects = (shelf.set c objects).withFailures os)
    (namespaceName : String) (a : α) (c : Cluster) :
    (c.withFailures os).create shelf namespaceName a =
      ((c.create shelf namespaceName a).1, (c.create shelf namespaceName a).2.withFailures os) := by
  have hcounted : (c.withFailures os).counted = c.counted.withFailures os := rfl
  simp only [create, hget, hcounted, hset]
  split <;> rfl

theorem replace_withFailures {α : Type} [Resource α] (shelf : Shelf α) (os : List Operation)
    (hget : ∀ c, shelf.get (c.withFailures os) = shelf.get c)
    (hset : ∀ c objects,
      shelf.set (c.withFailures os) objects = (shelf.set c objects).withFailures os)
    (namespaceName : String) (a : α) (c : Cluster) :
    (c.withFailures os).replace shelf namespaceName a =
      ((c.replace shelf namespaceName a).1,
        (c.replace shelf namespaceName a).2.withFailures os) := by
  have hcounted : (c.withFailures os).counted = c.counted.withFailures os := rfl
  simp only [replace, hget, hcounted, hset]
  split
  · rfl
  · split <;> rfl

theorem patchStatus_withFailures (os : List Operation) (key : ObjectKey) (status : StageStatus)
    (c : Cluster) :
    (c.withFailures os).patchStatus key status =
      ((c.patchStatus key status).1, (c.patchStatus key status).2.withFailures os) := by
  simp only [patchStatus, withFailures]
  split
  · rfl
  · split <;> rfl

theorem patchFinalizers_withFailures (os : List Operation) (key : ObjectKey)
    (version : Option String) (finalizers : List String) (c : Cluster) :
    (c.withFailures os).patchFinalizers key version finalizers =
      ((c.patchFinalizers key version finalizers).1,
        (c.patchFinalizers key version finalizers).2.withFailures os) := by
  simp only [patchFinalizers, withFailures]
  split
  · rfl
  · split
    · split <;> rfl
    · rfl

theorem patchOwnership_withFailures (os : List Operation) (key : ObjectKey)
    (owners : List OwnerReference) (labels : Dict String String) (c : Cluster) :
    (c.withFailures os).patchOwnership key owners labels =
      ((c.patchOwnership key owners labels).1,
        (c.patchOwnership key owners labels).2.withFailures os) := by
  simp only [patchOwnership, withFailures]
  split <;> rfl

theorem serve_withFailures (os : List Operation) (r : Request) (c : Cluster) :
    (c.withFailures os).serve r = ((c.serve r).1, (c.serve r).2.withFailures os) := by
  cases r with
  | patchStageStatus => exact patchStatus_withFailures ..
  | patchStageFinalizers => exact patchFinalizers_withFailures ..
  | patchStageOwnership => exact patchOwnership_withFailures ..
  | createImageStream | createReleaseJob | createRole | createRoleBinding =>
      exact create_withFailures _ os (fun _ => rfl) (fun _ _ => rfl) ..
  | replaceImageStream | replaceReleaseJob =>
      exact replace_withFailures _ os (fun _ => rfl) (fun _ _ => rfl) ..
  | createNamespace name =>
      by_cases h : c.namespaces.contains name <;>
        simp [serve, createNamespace, withFailures, h] <;> rfl
  | deleteNamespace name =>
      by_cases h : c.namespaces.contains name <;>
        simp [serve, deleteNamespace, withFailures, h] <;> rfl
  | createSpace name account =>
      by_cases h : c.spaces.contains name <;> simp [serve, createSpace, withFailures, h] <;> rfl
  | createProject name description =>
      by_cases h : c.projects.contains name <;> simp [serve, createProject, withFailures, h] <;> rfl
  | deleteProject name =>
      by_cases h : c.projects.contains name <;> simp [serve, deleteProject, withFailures, h] <;> rfl
  | _ => rfl

theorem serve_calm (r : Request) (c : Cluster) :
    c.calm.serve r = ((c.serve r).1, (c.serve r).2.calm) := serve_withFailures [] r c

theorem failures_serve (r : Request) (c : Cluster) : (c.serve r).2.failures = c.failures := by
  have h := serve_withFailures c.failures r c
  rw [withFailures_failures] at h
  exact congrArg (fun x => x.2.failures) h

theorem answer_of_mem {r : Request} {c : Cluster} (h : r.operation ∈ c.failures) :
    c.answer r = (.error (injectedFault r.operation),
      c.withFailures (c.failures.filter (· ≠ r.operation))) := by
  have : c.failures.contains r.operation = true := by simpa using h
  simp only [answer, this, if_true, withFailures]

theorem answer_of_not_mem {r : Request} {c : Cluster} (h : r.operation ∉ c.failures) :
    c.answer r = c.serve r := by
  have : c.failures.contains r.operation = false := by simpa using h
  simp only [answer, this, Bool.false_eq_true, if_false]

theorem answer_eq_serve {c : Cluster} (h : c.failures = []) (r : Request) :
    c.answer r = c.serve r := answer_of_not_mem (h ▸ List.not_mem_nil)

end Cluster

namespace FaultScript

/-- The failure that scripts have for a request is that of one of them, and what is left of the
scripts has no other failures. -/
theorem next_spec {F : Error → Prop} (o : Operation) (scripts : List FaultScript)
    (h : ∀ s ∈ scripts, F s.error) :
    (∀ e ∈ (next o scripts).1, F e) ∧ ∀ s ∈ (next o scripts).2, F s.error := by
  induction scripts with
  | nil => simp [next]
  | cons s rest ih =>
      obtain ⟨hs, hrest⟩ := List.forall_mem_cons.1 h
      obtain ⟨ihe, ihs⟩ := ih hrest
      unfold next
      split
      · split
        · exact ⟨ihe, List.forall_mem_cons.2 ⟨hs, ihs⟩⟩
        · refine ⟨fun e he => ?_, List.forall_mem_cons.2 ⟨hs, hrest⟩⟩
          cases he
          exact hs
        · exact ⟨ihe, List.forall_mem_cons.2 ⟨hs, ihs⟩⟩
      · exact ⟨ihe, List.forall_mem_cons.2 ⟨hs, ihs⟩⟩

theorem next_cons_of_ne {o op : Operation} (h : op ≠ o) (e : Error) (skip times : Nat)
    (rest : List FaultScript) : (next o (⟨op, e, skip, times⟩ :: rest)).1 = (next o rest).1 := by
  rw [next, if_neg h]

/-- A request counts for the scripts of its own operation only. -/
theorem next_next_of_ne {o o' : Operation} (h : o' ≠ o) (scripts : List FaultScript) :
    (next o (next o' scripts).2).1 = (next o scripts).1 := by
  induction scripts with
  | nil => rfl
  | cons s rest ih =>
      by_cases hs : s.operation = o'
      · have hother : s.operation ≠ o := hs ▸ h
        have hrest : (next o (s :: rest)).1 = (next o rest).1 := next_cons_of_ne hother ..
        rw [hrest, next, if_pos hs]
        split
        · exact (next_cons_of_ne hother ..).trans ih
        · exact next_cons_of_ne hother ..
        · exact (next_cons_of_ne hother ..).trans ih
      · -- The script stays as it is, and it has its say if it is one of the other operation.
        rw [next, if_neg hs]
        dsimp only
        rw [next, next]
        split
        · split
          · exact ih
          · rfl
          · exact ih
        · exact ih

end FaultScript

namespace ObservedCluster

variable {α : Type} {F : Error → Prop}

/-- The failure that the next request of an operation meets before the cluster looks at it. -/
def refusal (op : Operation) (o : ObservedCluster) : Option Error :=
  match (FaultScript.next op o.scripts).1 with
  | some e => some e
  | none => if op ∈ o.cluster.failures then some (Cluster.injectedFault op) else none

theorem answer_of_refusal {r : Request} {o : ObservedCluster} {e : Error}
    (h : o.refusal r.operation = some e) : (o.answer r).1 = .error e := by
  unfold refusal at h
  unfold answer
  cases hnext : FaultScript.next r.operation o.scripts with
  | mk fault scripts =>
      rw [hnext] at h
      cases fault with
      | some e' =>
          cases h
          rfl
      | none =>
          dsimp only at h ⊢
          split at h
          · next hmem =>
            cases h
            rw [Cluster.answer_of_mem hmem]
          · cases h

/-- A request meets the failures of its own operation only. -/
theorem refusal_answer_of_ne {op : Operation} {r : Request} (h : r.operation ≠ op)
    (o : ObservedCluster) : (o.answer r).2.refusal op = o.refusal op := by
  have hscripts := FaultScript.next_next_of_ne h o.scripts
  have hfailures : op ∈ (o.answer r).2.cluster.failures ↔ op ∈ o.cluster.failures := by
    unfold answer
    dsimp only
    split
    · rfl
    · by_cases hmem : r.operation ∈ o.cluster.failures
      · rw [Cluster.answer_of_mem hmem]
        simp [Cluster.withFailures, h.symm]
      · rw [Cluster.answer_of_not_mem hmem, Cluster.failures_serve]
  have hstate : (o.answer r).2.scripts = (FaultScript.next r.operation o.scripts).2 := by
    unfold answer
    dsimp only
    split <;> rfl
  simp only [refusal, hstate, hscripts, hfailures]

theorem refusal_run {op : Operation} {p : Session α} (h : p.Asks (·.operation ≠ op))
    (o : ObservedCluster) : (p.run client o).2.refusal op = o.refusal op := by
  induction p generalizing o with
  | done result => rfl
  | call r next ih => exact (ih _ (h.2 _) _).trans (refusal_answer_of_ne h.1 o)
  | announce n next ih => exact ih h (o.publish n)

/-- The failure is that of a script or one of the store's own. -/
def Pending (o : ObservedCluster) (e : Error) : Prop :=
  (∃ s ∈ o.scripts, s.error = e) ∨ ∃ op ∈ o.cluster.failures, Cluster.injectedFault op = e

/-- All failures that are still to come, by scripts or by the store, are among `F`. -/
structure FailsWith (F : Error → Prop) (o : ObservedCluster) : Prop where
  scripted : ∀ s ∈ o.scripts, F s.error
  stored : ∀ op ∈ o.cluster.failures, F (Cluster.injectedFault op)

instance [DecidablePred F] (o : ObservedCluster) : Decidable (o.FailsWith F) :=
  decidable_of_iff ((∀ s ∈ o.scripts, F s.error) ∧
      ∀ op ∈ o.cluster.failures, F (Cluster.injectedFault op))
    ⟨fun h => ⟨h.1, h.2⟩, fun h => ⟨h.scripted, h.stored⟩⟩

theorem failsWith_pending (o : ObservedCluster) : o.FailsWith o.Pending :=
  ⟨fun s hs => .inl ⟨s, hs, rfl⟩, fun op hop => .inr ⟨op, hop, rfl⟩⟩

/-- Where no failure is to come, none is pending. -/
theorem FailsWith.calm_eq {o : ObservedCluster} (h : o.FailsWith NoFailure) :
    o.cluster.calm = o.cluster := by
  have hnone : o.cluster.failures = [] := List.eq_nil_iff_forall_not_mem.2 h.stored
  rw [Cluster.calm, ← hnone, Cluster.withFailures_failures]

/-- A request is served, or it fails with one of the errors to come and leaves the objects alone. -/
theorem answer_cases (r : Request) {o : ObservedCluster} (h : o.FailsWith F) :
    (o.answer r).2.FailsWith F ∧
      ((∃ e, F e ∧ (o.answer r).1 = .error e ∧ (o.answer r).2.cluster.calm = o.cluster.calm) ∨
        ((o.answer r).1 = (o.cluster.calm.serve r).1 ∧
          (o.answer r).2.cluster.calm = (o.cluster.calm.serve r).2)) := by
  obtain ⟨hnext, hscripts⟩ := FaultScript.next_spec (F := F) r.operation o.scripts h.scripted
  rw [Cluster.serve_calm]
  unfold answer
  cases hfault : FaultScript.next r.operation o.scripts with
  | mk fault scripts =>
      rw [hfault] at hnext hscripts
      cases fault with
      | some e => exact ⟨⟨hscripts, h.stored⟩, .inl ⟨e, hnext e rfl, rfl, rfl⟩⟩
      | none =>
          by_cases hmem : r.operation ∈ o.cluster.failures
          · simp only [Cluster.answer_of_mem hmem]
            refine ⟨⟨hscripts, fun op hop => h.stored op ((List.mem_filter.1 hop).1)⟩, .inl ?_⟩
            exact ⟨_, h.stored _ hmem, rfl, rfl⟩
          · simp only [Cluster.answer_of_not_mem hmem]
            refine ⟨⟨hscripts, fun op hop => h.stored op ?_⟩, .inr (by simp)⟩
            rwa [Cluster.failures_serve] at hop

/-- **Soundness of the judgment for runs.** What a session ensures under all failures holds of its
run on the observed cluster. -/
theorem run_of_ensures {p : Session α} {Q : Except Error α → Cluster → Prop}
    {o : ObservedCluster} (ho : o.FailsWith F) (h : p.Ensures F o.cluster.calm Q) :
    Q (p.run client o).1 (p.run client o).2.cluster.calm := by
  induction p generalizing o with
  | done result => exact h
  | call r next ih =>
      obtain ⟨hfault, hserve⟩ := h
      obtain ⟨hrest, hcases⟩ := answer_cases r ho
      simp only [Session.run, client]
      rcases hcases with ⟨e, he, hanswer, hcalm⟩ | ⟨hanswer, hcalm⟩
      · rw [hanswer]
        exact ih _ hrest (hcalm ▸ hfault e he)
      · rw [hanswer]
        exact ih _ hrest (hcalm ▸ hserve)
  | announce n next ih => exact ih ⟨ho.scripted, ho.stored⟩ h

end ObservedCluster

namespace Cluster

variable {α : Type}

/-- What a session ensures under the pending failures holds of its run. -/
theorem run_calm_of_ensures {F : Error → Prop} {p : Session α}
    {Q : Except Error α → Cluster → Prop} {c : Cluster} (hF : ∀ o ∈ c.failures, F (injectedFault o))
    (h : p.Ensures F c.calm Q) : Q (p.run client c).1 (p.run client c).2.calm := by
  induction p generalizing c with
  | done result => exact h
  | call r next ih =>
      obtain ⟨hfault, hserve⟩ := h
      by_cases hmem : r.operation ∈ c.failures
      · simp only [Session.run, client, answer_of_mem hmem]
        exact ih _ (fun o ho => hF o (List.mem_filter.1 ho).1) (hfault _ (hF _ hmem))
      · simp only [Session.run, client, answer_of_not_mem hmem]
        rw [serve_calm] at hserve
        exact ih _ (fun o ho => hF o (failures_serve r c ▸ ho)) hserve
  | announce n next ih => exact ih hF h

/-- Where no failure is pending for anything that a session may ask for, its run is the outcome
without faults. -/
theorem run_of_asks {p : Session α} {Q : Except Error α → Cluster → Prop} {c : Cluster}
    (hp : p.Asks (·.operation ∉ c.failures)) (h : p.Ensures NoFailure c Q) :
    Q (p.run client c).1 (p.run client c).2 ∧ (p.run client c).2.failures = c.failures := by
  induction p generalizing c with
  | done result => exact ⟨h, rfl⟩
  | call r next ih =>
      have hsame := failures_serve r c
      simp only [Session.run, client, answer_of_not_mem hp.1]
      obtain ⟨hQ, hfailures⟩ := ih (c.serve r).1 (hsame.symm ▸ hp.2 _) h.2
      exact ⟨hQ, hfailures.trans hsame⟩
  | announce n next ih => exact ih hp h

/-- On a cluster without pending failures, runs are the outcomes without faults. -/
theorem run_of_ensures {p : Session α} {Q : Except Error α → Cluster → Prop} {c : Cluster}
    (hc : c.failures = []) (h : p.Ensures (fun _ => False) c Q) :
    Q (p.run client c).1 (p.run client c).2 ∧ (p.run client c).2.failures = [] := by
  have hp : p.Asks (·.operation ∉ c.failures) :=
    (Session.asks_true p).mono fun r _ => hc ▸ List.not_mem_nil
  rw [← hc]
  exact run_of_asks hp h

/-- The outcome without faults is that of the run. -/
theorem ensures_run (p : Session α) {c : Cluster} (hc : c.failures = []) :
    p.Ensures NoFailure c fun r c' => p.run client c = (r, c') := by
  induction p generalizing c with
  | done result => rfl
  | call r next ih =>
      have hrest := ih (c.serve r).1 ((failures_serve r c).trans hc)
      rw [← answer_eq_serve hc] at hrest
      refine ⟨fun e he => he.elim, ?_⟩
      rw [← answer_eq_serve hc]
      exact hrest
  | announce n next ih => exact ih hc

end Cluster

end Conveyor
