import Conveyor.Proofs.DeletionOrder
import Conveyor.Proofs.Predecessors
import Mathlib.Data.Finset.Max

/-!
Who comes before whom among the stages of a pipeline, and who waits for whom. There are two scans of
the siblings, one for the predecessor of a stage and one for the stages that a deletion has to wait
for. The first one finds the closest order below, and of several stages there the last one. The
second one finds every stage that comes later, so a predecessor outstays the stages it precedes.

Nobody waits in a circle. A deleted stage waits for stages of its own order only as long as these
are live, so that its rank, which counts twice the order and one more for a live stage, is below the
rank of whatever it waits for. And nobody who has stopped waiting starts again, as long as no stage
joins the siblings.
-/

namespace Conveyor

/-- Two of four stages are at one place, and the later one of these and the last stage are to go. -/
def Sample.tiedStages : List Step :=
  [.insertStage (stage "dev" (-2)), .insertStage (stage "qa" 1),
    .insertStage { stage "qa-copy" 1 with metadata.finalizers := some [Stage.finalizer] },
    .insertStage (stage "prod" 3), .markDeleting .epoch (key "qa-copy"),
    .markDeleting .epoch (key "prod")]

def Sample.leaving (name : String) (order : Int) : Stage :=
  { stage name order with
    metadata.finalizers := some [Stage.finalizer], metadata.deletionTimestamp := some .epoch }

namespace Stage

variable {siblings : List Stage} {s p a b : Stage} {order : Int}

/-! ### The predecessor -/

/-- The stage is before a place in the order, and no sibling is between. -/
def ClosestBelow (order : Int) (siblings : List Stage) (p : Stage) : Prop :=
  p.spec.order < order ∧ ∀ b ∈ siblings, ¬ (p.spec.order < b.spec.order ∧ b.spec.order < order)

theorem previousOf_eq_none :
    previousOf order siblings = none ↔ ∀ b ∈ siblings, ¬ b.spec.order < order := by
  constructor
  · intro h b hb hlower
    obtain ⟨p, hp⟩ := exists_previousOf hb hlower
    cases h.symm.trans hp
  · intro h
    cases hp : previousOf order siblings with
    | none => rfl
    | some p =>
        obtain ⟨hmem, hlower⟩ := previousOf_eq_some hp
        exact absurd hlower (h p hmem)

/-- The search for a predecessor finds one that is closest, and after it there is no other. -/
theorem closestBelow_of_previousOf (h : previousOf order siblings = some p) :
    ∃ before after, siblings = before ++ p :: after ∧ ClosestBelow order siblings p ∧
      ∀ b ∈ after, ¬ ClosestBelow order siblings b := by
  obtain ⟨before, after, rfl, hlower, hbefore, hafter⟩ := previousOf_greatest h
  refine ⟨before, after, rfl, ⟨hlower, fun b hb ⟨hpb, hb'⟩ => ?_⟩, fun b hb ⟨hb', hnone⟩ => ?_⟩
  · rcases List.mem_append.1 hb with hb | hb
    · exact absurd (hbefore b hb hb') (by omega)
    · rcases List.mem_cons.1 hb with rfl | hb
      · omega
      · exact absurd (hafter b hb hb') (by omega)
  · -- Whoever comes later in the list is further away than the one that was found.
    exact hnone p (List.mem_append_right _ List.mem_cons_self) ⟨hafter b hb hb', hlower⟩

/-! ### The stages that a deletion waits for -/

/-- A stage of another name waits for all that come later. -/
theorem hasDependents_of_later (hs : s ∈ siblings) (hname : s.name ≠ p.name)
    (hlower : p.spec.order < s.spec.order) : p.hasDependents siblings = true :=
  hasDependents_eq_true.2 ⟨s, hs, waitsFor_eq_true.2 ⟨hname, .inl hlower⟩⟩

theorem name_ne_of_order_lt (hnames : (siblings.map name).Nodup) (hs : s ∈ siblings)
    (hp : p ∈ siblings) (hlower : p.spec.order < s.spec.order) : s.name ≠ p.name := by
  intro hname
  obtain rfl := List.inj_on_of_nodup_map hnames hs hp hname
  exact lt_irrefl _ hlower

/-- No reconcile releases a stage of the pipeline that another one comes after. -/
theorem ensures_reconcile_outstays {F : Error → Prop} {c : Cluster} {t : Stage} {pipeline : String}
    (config : Config) (now : Timestamp) (hc : c.Coherent) (ht : c.stages.get? t.key = some t)
    (hs : s ∈ c.siblings s pipeline) (hp : p ∈ c.siblings s pipeline)
    (hlower : p.spec.order < s.spec.order) :
    (t.reconcile config now).Ensures F c fun _ c' => ¬ c.Releases c' p.key p := by
  obtain ⟨hsstored, -, hspipeline⟩ := hc.mem_siblings.1 hs
  obtain ⟨-, hphome, hppipeline⟩ := hc.mem_siblings.1 hp
  refine (ensures_reconcile_releases config now hc ht).mono fun _ c' h hreleases => ?_
  have hsibling : c.IsSibling p.key p s.key s := by
    refine ⟨hsstored, fun hkey => ?_, hphome.symm, hspipeline.trans hppipeline.symm⟩
    obtain rfl := hc.eq_of_key_eq hs hp hkey
    exact lt_irrefl _ hlower
  rcases h p.key p hreleases s.key s hsibling with hearlier | ⟨hsame, -⟩ <;> omega

/-- **The predecessor is the closest one, and it stays.** Of siblings that are told apart by their
names, the search finds nobody if nobody comes before the stage, and else the last one of those that
come closest before it. That one, and whoever else comes before, has a dependent, so its deletion is
held up. In a cluster none of them loses its finalizer or disappears through the reconcile of any
stage, whatever fails in it, as long as the stage is there, be it that it is to go itself. -/
theorem predecessor_outstays {siblings : List Stage} (hnames : (siblings.map name).Nodup)
    {s : Stage} (hs : s ∈ siblings) :
    (previousOf s.spec.order siblings = none ↔ ∀ b ∈ siblings, ¬ b.spec.order < s.spec.order) ∧
    (∀ p, previousOf s.spec.order siblings = some p →
      ∃ before after, siblings = before ++ p :: after ∧ ClosestBelow s.spec.order siblings p ∧
        ∀ b ∈ after, ¬ ClosestBelow s.spec.order siblings b) ∧
    ∀ p ∈ siblings, p.spec.order < s.spec.order →
      p.hasDependents siblings = true ∧
      (p.isBeingDeleted = true → p.hasFinalizer = true →
        p.deletionState siblings = .pendingDependents) ∧
      ∀ c : Cluster, c.Reachable → siblings = c.siblings s s.pipelineName →
        ∀ (t : Stage), c.stages.get? t.key = some t → ∀ F config now,
          (t.reconcile config now).Ensures F c fun _ c' => ¬ c.Releases c' p.key p := by
  refine ⟨previousOf_eq_none, fun p hp => closestBelow_of_previousOf hp, fun p hp hlower => ?_⟩
  have hdep := hasDependents_of_later hs (name_ne_of_order_lt hnames hs hp hlower) hlower
  refine ⟨hdep, fun hdeleted hfin => deletionState_eq_pending hdeleted hfin hdep, ?_⟩
  rintro c hc rfl t ht F config now
  exact ensures_reconcile_outstays config now hc.coherent ht hs hp hlower

open Sample in
/-- Of two stages at one place, the later one in the list is the predecessor of the last stage. Both
are to go, and the predecessor has to wait. -/
theorem predecessor_outstays_of_tied_stages :
    let c := (({} : World).run tiedStages).cluster
    let siblings := c.members "edp" "mobile"
    ∃ s ∈ siblings, ∃ p ∈ siblings, s.name = "prod" ∧ p.name = "qa-copy" ∧
      previousOf s.spec.order siblings = some p ∧ ClosestBelow s.spec.order siblings p ∧
      p.deletionState siblings = .pendingDependents ∧
      (p.reconcile {} .epoch).Ensures (fun _ => True) c fun _ c' => ¬ c.Releases c' p.key p := by
  intro c siblings
  obtain ⟨hnames, s, hs, p, hp, ⟨hsname, hpname, hprevious, hlower⟩, ⟨hdeleted, hfin, hstored⟩,
      hhome, hpipeline⟩ :
      (siblings.map name).Nodup ∧ ∃ s ∈ siblings, ∃ p ∈ siblings,
        (s.name = "prod" ∧ p.name = "qa-copy" ∧ previousOf s.spec.order siblings = some p ∧
          p.spec.order < s.spec.order) ∧
        (p.isBeingDeleted = true ∧ p.hasFinalizer = true ∧ c.stages.get? p.key = some p) ∧
        s.namespaceName = "edp" ∧ s.pipelineName = "mobile" := by
    decide +kernel
  have hreachable : c.Reachable := World.reachable_run tiedStages
  have hsiblings : siblings = c.siblings s s.pipelineName := by
    rw [Cluster.siblings, hhome, hpipeline]
    rfl
  obtain ⟨-, hclosest, hkept⟩ := predecessor_outstays hnames hs
  obtain ⟨-, -, -, hp', -⟩ := hclosest p hprevious
  obtain ⟨-, hpending, houtstays⟩ := hkept p hp hlower
  exact ⟨s, hs, p, hp, hsname, hpname, hprevious, hp', hpending hdeleted hfin,
    houtstays c hreachable hsiblings p hstored _ {} .epoch⟩

/-! ### Waiting -/

/-- A deleted stage waits for a sibling that would hold it up all alone. -/
structure Awaits (siblings : List Stage) (a b : Stage) : Prop where
  left : a ∈ siblings
  right : b ∈ siblings
  deleted : a.isBeingDeleted = true
  waits : a.hasDependents [b] = true

theorem hasDependents_singleton : a.hasDependents [b] = a.waitsFor b := by
  rw [hasDependents, List.any_cons, List.any_nil, Bool.or_false]

/-- A deletion is held up by the siblings one by one. -/
theorem pending_iff_awaits (ha : a ∈ siblings) (hdeleted : a.isBeingDeleted = true)
    (hfin : a.hasFinalizer = true) :
    a.deletionState siblings = .pendingDependents ↔ ∃ b, Awaits siblings a b := by
  constructor
  · intro hpending
    have hdep : a.hasDependents siblings = true := by
      by_contra hfree
      simp [deletionState, hdeleted, hfin, hfree] at hpending
    obtain ⟨b, hb, hwaits⟩ := hasDependents_eq_true.1 hdep
    exact ⟨b, ha, hb, hdeleted, hasDependents_singleton.trans hwaits⟩
  · rintro ⟨b, -, hb, -, hwaits⟩
    rw [hasDependents_singleton] at hwaits
    exact deletionState_eq_pending hdeleted hfin (hasDependents_eq_true.2 ⟨b, hb, hwaits⟩)

/-- What a stage gains over whatever waits for it: a place in the order, or, at the same place, that
it is live. -/
def waitingRank (s : Stage) : Int := 2 * s.spec.order + if s.isBeingDeleted then 0 else 1

theorem Awaits.waitingRank_lt (h : Awaits siblings a b) : a.waitingRank < b.waitingRank := by
  have hwaits : a.waitsFor b = true := hasDependents_singleton.symm.trans h.waits
  simp only [waitingRank, h.deleted, if_true]
  rcases (waitsFor_eq_true.1 hwaits).2 with hlater | ⟨horder, hlive⟩
  · split <;> omega
  · simp only [hlive, Bool.false_eq_true, if_false]
    omega

theorem waitingRank_lt_of_transGen (h : Relation.TransGen (Awaits siblings) a b) :
    a.waitingRank < b.waitingRank := by
  induction h with
  | single h => exact h.waitingRank_lt
  | tail _ h ih => exact ih.trans h.waitingRank_lt

/-- No sibling comes after the stage. -/
def IsLast (siblings : List Stage) (a : Stage) : Prop :=
  a ∈ siblings ∧ ∀ b ∈ siblings, b.spec.order ≤ a.spec.order

theorem exists_isLast (h : siblings ≠ []) : ∃ a, IsLast siblings a := by
  obtain ⟨a, ha, hlast⟩ := siblings.toFinset.exists_max_image (·.spec.order)
    (List.toFinset_nonempty_iff siblings |>.2 h)
  exact ⟨a, List.mem_toFinset.1 ha, fun b hb => hlast b (List.mem_toFinset.2 hb)⟩

/-- The last stages wait for nobody, when all of them are to go. -/
theorem finalizing_of_isLast
    (hgoing : ∀ b, IsLast siblings b → b.isBeingDeleted = true ∧ b.hasFinalizer = true)
    (ha : IsLast siblings a) : a.deletionState siblings = .finalizing := by
  obtain ⟨hdeleted, hfin⟩ := hgoing a ha
  refine deletionState_eq_finalizing.2 ⟨hdeleted, hfin, ?_⟩
  refine hasDependents_eq_false.2 fun b hb => Bool.eq_false_iff.2 fun hwaits => ?_
  rcases (waitsFor_eq_true.1 hwaits).2 with hlater | ⟨horder, hlive⟩
  · exact absurd (ha.2 b hb) (by omega)
  · have hb' : IsLast siblings b := ⟨hb, fun d hd => horder ▸ ha.2 d hd⟩
    rw [(hgoing b hb').1] at hlive
    cases hlive

/-- What may happen to siblings whom nobody joins: one of them leaves, or its deletion is asked for,
which changes neither its name nor its place. -/
inductive Thins : List Stage → List Stage → Prop
  | leave (before : List Stage) (b : Stage) (after : List Stage) :
    Thins (before ++ b :: after) (before ++ after)
  | mark (before : List Stage) {b b' : Stage} (after : List Stage) (hname : b'.name = b.name)
    (horder : b'.spec.order = b.spec.order) (hdeleted : b'.isBeingDeleted = true) :
    Thins (before ++ b :: after) (before ++ b' :: after)

/-- One step gives nobody a new sibling to wait for. -/
theorem Thins.waitsFor {siblings' : List Stage} (h : Thins siblings siblings') {b' : Stage}
    (hb' : b' ∈ siblings') (hwaits : a.waitsFor b' = true) :
    ∃ b ∈ siblings, a.waitsFor b = true := by
  cases h with
  | leave before b after =>
      refine ⟨b', ?_, hwaits⟩
      rcases List.mem_append.1 hb' with hb' | hb'
      · exact List.mem_append_left _ hb'
      · exact List.mem_append_right _ (List.mem_cons_of_mem b hb')
  | @mark before b b'' after hname horder hdeleted =>
      rcases List.mem_append.1 hb' with hb' | hb'
      · exact ⟨b', List.mem_append_left _ hb', hwaits⟩
      rcases List.mem_cons.1 hb' with rfl | hb'
      · refine ⟨b, List.mem_append_right _ List.mem_cons_self, ?_⟩
        obtain ⟨hother, hlater | ⟨-, hlive⟩⟩ := waitsFor_eq_true.1 hwaits
        · exact waitsFor_eq_true.2 ⟨hname ▸ hother, .inl (horder ▸ hlater)⟩
        · rw [hdeleted] at hlive
          cases hlive
      · exact ⟨b', List.mem_append_right _ (List.mem_cons_of_mem b hb'), hwaits⟩

theorem Thins.finalizing {siblings' : List Stage} (h : Thins siblings siblings')
    (ha : a.deletionState siblings = .finalizing) : a.deletionState siblings' = .finalizing := by
  obtain ⟨hdeleted, hfin, hfree⟩ := deletionState_eq_finalizing.1 ha
  refine deletionState_eq_finalizing.2 ⟨hdeleted, hfin, ?_⟩
  refine hasDependents_eq_false.2 fun b' hb' => Bool.eq_false_iff.2 fun hwaits => ?_
  obtain ⟨b, hb, hwaits'⟩ := h.waitsFor hb' hwaits
  rw [hasDependents_eq_false.1 hfree b hb] at hwaits'
  cases hwaits'

/-- As long as nobody joins the siblings, a stage that may go may still go. -/
theorem finalizing_of_thins {siblings' : List Stage}
    (h : Relation.ReflTransGen Thins siblings siblings')
    (ha : a.deletionState siblings = .finalizing) : a.deletionState siblings' = .finalizing := by
  induction h with
  | refl => exact ha
  | tail _ h ih => exact h.finalizing ih

/-- **Nobody waits in a circle.** Among siblings of any orders, live and deleted ones, a deletion is
held up when there is somebody to wait for, and no deleted stage waits for itself, not through
others either. When all of the last ones are to go, each of them may go, and there is one. Whoever
may go may still go after siblings have left, or after their deletion was asked for. -/
theorem waits_end (siblings : List Stage) :
    (∀ a ∈ siblings, a.isBeingDeleted = true → a.hasFinalizer = true →
      (a.deletionState siblings = .pendingDependents ↔ ∃ b, Awaits siblings a b)) ∧
    (∀ a, ¬ Relation.TransGen (Awaits siblings) a a) ∧
    (siblings ≠ [] →
      (∀ b, IsLast siblings b → b.isBeingDeleted = true ∧ b.hasFinalizer = true) →
      (∃ a, IsLast siblings a) ∧
        ∀ a, IsLast siblings a → a.deletionState siblings = .finalizing) ∧
    ∀ siblings', Relation.ReflTransGen Thins siblings siblings' →
      ∀ a : Stage, a.deletionState siblings = .finalizing →
        a.deletionState siblings' = .finalizing := by
  refine ⟨fun a ha hdeleted hfin => pending_iff_awaits ha hdeleted hfin, fun a hcycle => ?_,
    fun hsome hgoing => ⟨exists_isLast hsome, fun a ha => ?_⟩, fun siblings' h a ha => ?_⟩
  · exact lt_irrefl _ (waitingRank_lt_of_transGen hcycle)
  · exact finalizing_of_isLast hgoing ha
  · exact finalizing_of_thins h ha

open Sample in
/-- Two last stages at one place may both go, also after the deletion of the stage before them was
asked for, and only this one waits. -/
theorem waits_end_of_tied_stages :
    let siblings := [stage "dev" 0, leaving "qa" 1, leaving "qa-copy" 1]
    let siblings' := [leaving "dev" 0, leaving "qa" 1, leaving "qa-copy" 1]
    (∀ a, IsLast siblings a → a.deletionState siblings = .finalizing ∧
      a.deletionState siblings' = .finalizing) ∧
    ∃ b, Awaits siblings' (leaving "dev" 0) b := by
  intro siblings siblings'
  obtain ⟨-, -, hlast, hthins⟩ := waits_end siblings
  obtain ⟨hpending, -⟩ := waits_end siblings'
  have hgoing : ∀ b, IsLast siblings b → b.isBeingDeleted = true ∧ b.hasFinalizer = true := by
    rintro b ⟨hb, hmost⟩
    obtain rfl | hb := List.mem_cons.1 hb
    · -- It is not among the last ones.
      exact absurd (hmost (leaving "qa" 1) (by decide)) (by decide)
    · have hleaving : ∀ a ∈ [leaving "qa" 1, leaving "qa-copy" 1],
          a.isBeingDeleted = true ∧ a.hasFinalizer = true := by decide
      exact hleaving b hb
  obtain ⟨-, hfinalizing⟩ := hlast (List.cons_ne_nil _ _) hgoing
  have hmark : Thins siblings siblings' := .mark [] _ rfl rfl rfl
  refine ⟨fun a ha => ⟨hfinalizing a ha, hthins _ (.single hmark) a (hfinalizing a ha)⟩, ?_⟩
  exact (hpending (leaving "dev" 0) List.mem_cons_self rfl (by decide)).1 (by decide)

end Stage

end Conveyor
