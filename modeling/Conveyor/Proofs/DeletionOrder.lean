import Conveyor.Proofs.Deletion
import Conveyor.Proofs.Scenario

/-!
Stages of one pipeline leave the cluster from the last to the first. Whatever happened before, no
reconcile takes the finalizer off a stage, or lets it disappear, as long as another stage of the
pipeline comes after it; and as long as one does, reconciling the deleted stage changes nothing.

Both are facts about one reconcile of a coherent cluster. A live stage is reconciled by requests
that keep all finalizers (`Stage.asks_reconcile_of_live`), and a deleted one is governed by its
deletion state (`Stage.ensures_reconcileDeletion_frame`). The runs only add that their clusters are
coherent.
-/

namespace Conveyor

namespace Cluster

/-- The stage `b`, stored at `l`, is another one of the namespace and pipeline of `a`, stored at
`k`.
-/
structure IsSibling (c : Cluster) (k : ObjectKey) (a : Stage) (l : ObjectKey) (b : Stage) :
    Prop where
  stored : c.stages.get? l = some b
  other : l ≠ k
  namespaceName : b.namespaceName = a.namespaceName
  pipelineName : b.pipelineName = a.pipelineName

/-- Between two clusters, the stage `a` at `k` disappears or loses the operator's finalizer. -/
def Releases (c c' : Cluster) (k : ObjectKey) (a : Stage) : Prop :=
  c.stages.get? k = some a ∧
    (c'.stages.get? k = none ∨
      a.hasFinalizer = true ∧ ∃ a', c'.stages.get? k = some a' ∧ a'.hasFinalizer = false)

theorem KeepsFinalizers.not_releases {c c' : Cluster} (h : c.KeepsFinalizers c') (k : ObjectKey)
    (a : Stage) : ¬ c.Releases c' k a := by
  rintro ⟨ha, hgone | ⟨hfin, a', ha', hlost⟩⟩
  · obtain ⟨a', ha', -⟩ := h k a ha
    rw [hgone] at ha'
    cases ha'
  · obtain ⟨a'', ha'', hkept⟩ := h k a ha
    rw [ha'] at ha''
    cases ha''
    rw [hkept hfin] at hlost
    cases hlost

theorem not_releases_of_get?_eq {c c' : Cluster} {k : ObjectKey}
    (h : c'.stages.get? k = c.stages.get? k) (a : Stage) : ¬ c.Releases c' k a := by
  rintro ⟨ha, hgone | ⟨hfin, a', ha', hlost⟩⟩
  · rw [h, ha] at hgone
    cases hgone
  · rw [h, ha] at ha'
    cases ha'
    rw [hfin] at hlost
    cases hlost

/-- Stages of one namespace under different keys have different names. -/
theorem IsSibling.name_ne {c : Cluster} (hc : c.Coherent) {k l : ObjectKey} {a b : Stage}
    (ha : c.stages.get? k = some a) (h : c.IsSibling k a l b) : b.name ≠ a.name := by
  intro hname
  refine h.other ?_
  rw [← hc.stages l b h.stored, ← hc.stages k a ha]
  simp only [Stage.key, h.namespaceName, hname]

theorem IsSibling.mem_siblings {c : Cluster} (hc : c.Coherent) {k l : ObjectKey} {a b : Stage}
    (h : c.IsSibling k a l b) : b ∈ c.siblings a a.pipelineName := by
  refine hc.mem_siblings.2 ⟨?_, h.namespaceName, h.pipelineName⟩
  rw [hc.stages l b h.stored]
  exact h.stored

end Cluster

namespace Stage

variable {F : Error → Prop} {c : Cluster} {k : ObjectKey} {s : Stage}

/-- A deletion that is found in `finalizing` has no sibling left that it would have to wait for. -/
theorem order_of_finalizing (hc : c.Coherent) (hs : c.stages.get? k = some s)
    (h : s.deletionState (c.siblings s s.pipelineName) = .finalizing) {l : ObjectKey} {b : Stage}
    (hb : c.IsSibling k s l b) :
    b.spec.order < s.spec.order ∨ b.spec.order = s.spec.order ∧ b.isBeingDeleted = true := by
  obtain ⟨-, -, hfree⟩ := deletionState_eq_finalizing.1 h
  exact (waitsFor_eq_false (hb.name_ne hc hs)).1
    (hasDependents_eq_false.1 hfree b (hb.mem_siblings hc))

/-- A reconcile, whatever fails in it, releases no stage that others come after. -/
theorem ensures_reconcile_releases (config : Config) (now : Timestamp) (hc : c.Coherent)
    (hs : c.stages.get? k = some s) :
    (s.reconcile config now).Ensures F c fun _ c' =>
      ∀ l a, c.Releases c' l a → ∀ m b, c.IsSibling l a m b →
        b.spec.order < a.spec.order ∨ b.spec.order = a.spec.order ∧ b.isBeingDeleted = true := by
  cases hdeleted : s.isBeingDeleted with
  | false =>
      have hkeep : (s.reconcile config now).Ensures F c fun _ c' => c.KeepsFinalizers c' := by
        refine (asks_reconcile_of_live config now hdeleted).ensures (fun r d hr hd => ?_)
          (Cluster.KeepsFinalizers.refl c)
        exact hd.trans (Cluster.keepsFinalizers_serve hr.2 d)
      exact hkeep.mono fun _ c' h l a hreleases => absurd hreleases (h.not_releases l a)
  | true =>
      simp only [reconcile, hdeleted, if_true]
      refine (ensures_reconcileDeletion_frame config s).mono ?_
      rintro r c' ⟨hother, hwait⟩ l a ha m b hb
      have hl : l = s.key := Decidable.byContradiction fun hne =>
        Cluster.not_releases_of_get?_eq (hother l hne) a ha
      have hk : s.key = k := hc.stages k s hs
      have hsa : s = a := by
        have hstored := ha.1
        rw [hl, hk, hs] at hstored
        exact Option.some.inj hstored
      subst hsa
      by_cases hstate : s.deletionState (c.siblings s s.pipelineName) = .finalizing
      · exact order_of_finalizing hc ha.1 hstate hb
      · rw [(hwait hstate).1] at ha
        exact absurd ha (Cluster.not_releases_of_get?_eq rfl s)

/-- As long as another stage comes after a deleted one, its reconcile changes nothing. -/
theorem ensures_reconcile_waits (config : Config) (now : Timestamp) (hc : c.Coherent)
    (hs : c.stages.get? k = some s) (hdeleted : s.isBeingDeleted = true)
    (hfin : s.hasFinalizer = true) {l : ObjectKey} {b : Stage} (hb : c.IsSibling k s l b)
    (horder : s.spec.order < b.spec.order ∨
      b.spec.order = s.spec.order ∧ b.isBeingDeleted = false) :
    (s.reconcile config now).Ensures F c fun r c' =>
      c' = c ∧ (r = .ok (.requeue 10) ∨ ∃ e, r = .error e ∧ F e) := by
  have hdep : s.hasDependents (c.siblings s s.pipelineName) = true :=
    hasDependents_eq_true.2
      ⟨b, hb.mem_siblings hc, waitsFor_eq_true.2 ⟨hb.name_ne hc hs, horder⟩⟩
  have hstate := deletionState_eq_pending hdeleted hfin hdep
  simp only [reconcile, hdeleted, if_true]
  refine (ensures_reconcileDeletion_frame config s).mono ?_
  rintro r c' ⟨-, hwait⟩
  rw [hstate] at hwait
  exact hwait (by decide)

end Stage

/-! ### Over whole runs -/

/-- Whether a stage has its place in the sample pipeline and its deletion is asked for. -/
def Sample.isLeaving (order : Int) (s : Stage) : Bool :=
  s.isBeingDeleted && s.hasFinalizer && s.namespaceName == "edp" && s.pipelineName == "mobile" &&
    s.spec.order == order

namespace World

/-- **Deletion order.** In every run from the empty cluster, a reconcile releases a stage only when
all other stages of its pipeline come before it or leave together with it, and while one does not, a
reconcile of the deleted stage changes nothing and asks to be repeated. -/
theorem deletion_waits_for_dependents (steps : List Step) (now : Timestamp) (key : ObjectKey) :
    let w := ({} : World).run steps
    let w' := w.apply (.reconcile now key)
    (∀ k a, w.cluster.Releases w'.cluster k a → ∀ l b, w.cluster.IsSibling k a l b →
      b.spec.order < a.spec.order ∨ b.spec.order = a.spec.order ∧ b.isBeingDeleted = true) ∧
    (∀ a, w.cluster.stages.get? key = some a → a.isBeingDeleted = true → a.hasFinalizer = true →
      ∀ l b, w.cluster.IsSibling key a l b →
        (a.spec.order < b.spec.order ∨ b.spec.order = a.spec.order ∧ b.isBeingDeleted = false) →
        w'.cluster.calm = w.cluster.calm ∧
          (w.answer now key = some (.ok (.requeue 10)) ∨
            ∃ e, w.answer now key = some (.error e))) := by
  intro w w'
  have hc : w.cluster.calm.Coherent := (reachable_run steps).coherent.calm
  have hfaults : w.observed.FailsWith fun _ => True := ⟨fun _ _ => trivial, fun _ _ => trivial⟩
  constructor
  · intro k a ha
    cases hs : w.cluster.stages.get? key with
    | none =>
        have hsame : w'.cluster = w.cluster := by
          simp only [w', apply, cluster, ObservedCluster.reconcile_of_absent hs]
        rw [hsame] at ha
        exact absurd ha (Cluster.not_releases_of_get?_eq rfl a)
    | some s =>
        obtain ⟨r, -, h⟩ := ObservedCluster.reconcile_of_ensures hfaults hs
          (Stage.ensures_reconcile_releases w.config now hc hs)
        exact fun l b hb => h k a ha l b ⟨hb.stored, hb.other, hb.namespaceName, hb.pipelineName⟩
  · intro a hs hdeleted hfin l b hb horder
    obtain ⟨r, hr, hsame, hresult⟩ := ObservedCluster.reconcile_of_ensures hfaults hs
      (Stage.ensures_reconcile_waits w.config now hc hs hdeleted hfin
        ⟨hb.stored, hb.other, hb.namespaceName, hb.pipelineName⟩ horder)
    refine ⟨hsame, ?_⟩
    rcases hresult with rfl | ⟨e, rfl, -⟩
    · exact .inl hr
    · exact .inr ⟨e, hr⟩

open Sample in
/-- The later of two stages is released, the earlier one waits for it. -/
theorem deletion_waits_for_dependents_of_two_stages :
    let w := ({} : World).run twoStagesLeaving
    (∃ qa dev,
      w.cluster.Releases (w.apply (.reconcile .epoch (key "qa"))).cluster (key "qa") qa ∧
      w.cluster.IsSibling (key "qa") qa (key "dev") dev ∧
      (dev.spec.order < qa.spec.order ∨
        dev.spec.order = qa.spec.order ∧ dev.isBeingDeleted = true)) ∧
    (w.apply (.reconcile .epoch (key "dev"))).cluster.calm = w.cluster.calm := by
  intro w
  obtain ⟨qa, hqa, hqa'⟩ := (Option.any_eq_true (isLeaving 1) (w.cluster.stages.get? (key "qa"))).1
    (by decide +kernel)
  obtain ⟨dev, hdev, hdev'⟩ :=
    (Option.any_eq_true (isLeaving 0) (w.cluster.stages.get? (key "dev"))).1 (by decide +kernel)
  simp only [isLeaving, Bool.and_eq_true, beq_iff_eq] at hqa' hdev'
  obtain ⟨⟨⟨⟨_, _⟩, hqan⟩, hqap⟩, hqao⟩ := hqa'
  obtain ⟨⟨⟨⟨hdeleted, hfin⟩, hdevn⟩, hdevp⟩, hdevo⟩ := hdev'
  have hgone : (w.apply (.reconcile .epoch (key "qa"))).cluster.stages.get? (key "qa") = none := by
    decide +kernel
  have hreleases : w.cluster.Releases (w.apply (.reconcile .epoch (key "qa"))).cluster
      (key "qa") qa := ⟨hqa, .inl hgone⟩
  have hdevSibling : w.cluster.IsSibling (key "qa") qa (key "dev") dev :=
    ⟨hdev, by decide, by rw [hdevn, hqan], by rw [hdevp, hqap]⟩
  have hqaSibling : w.cluster.IsSibling (key "dev") dev (key "qa") qa :=
    ⟨hqa, by decide, by rw [hdevn, hqan], by rw [hdevp, hqap]⟩
  refine ⟨⟨qa, dev, hreleases, hdevSibling, ?_⟩, ?_⟩
  · exact (deletion_waits_for_dependents twoStagesLeaving .epoch (key "qa")).1 (key "qa") qa
      hreleases (key "dev") dev hdevSibling
  · exact ((deletion_waits_for_dependents twoStagesLeaving .epoch (key "dev")).2 dev hdev hdeleted
      hfin (key "qa") qa hqaSibling (.inl (by rw [hqao, hdevo]; decide))).1

end World

end Conveyor
