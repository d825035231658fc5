import Conveyor.Proofs.Completion
import Conveyor.Proofs.Rounds

/-!
The end of a whole pipeline. The deletion of all its stages is asked for, and they are reconciled in
rounds. A stage that another one comes after is only waited for, and the others find all that they
consume and go, since their predecessors go after them. So each round takes the last place of the
order away, perhaps more than one, and it does not matter how the stages follow on one another
within a round.
-/

namespace Conveyor

open Session
open Promotion (Consumed)

namespace Cluster

variable {home name : String} {p : Pipeline} {codebases : List String} {c c' : Cluster} {s : Stage}

/-- The pipeline `p`, stored under `name`, is torn down. Its inputs are there and are about the
codebases. -/
@[mk_iff]
structure TearingDown (home name : String) (p : Pipeline) (codebases : List String) (c : Cluster) :
    Prop where
  pipeline : c.pipelines.get? ⟨home, name⟩ = some p
  sources : List.Forall₂ (fun input x => c.codebaseAt ⟨home, input⟩ = some x) p.spec.inputStreams
    codebases
  distinct : codebases.Nodup
  leaving : ∀ s ∈ c.members home name,
    s.isBeingDeleted = true ∧ s.finalizers = [Stage.finalizer]
  published : ∀ s ∈ c.members home name, ∀ x ∈ codebases,
    (c.codebaseAt ⟨home, Promotion.verifiedName p.name s.spec.name x⟩).isSome = true
  /-- Stages that are not the first ones come after others. -/
  preceded : ∀ s ∈ c.members home name, s.spec.order ≠ 0 →
    ∃ b ∈ c.members home name, b.spec.order < s.spec.order

instance : Decidable (c.TearingDown home name p codebases) :=
  decidable_of_iff' _ (tearingDown_iff home name p codebases c)

/-- A stage of the pipeline finds all that it consumes. -/
theorem TearingDown.supplies (h : c.TearingDown home p.name p codebases) (hc : c.Coherent)
    (hinputs : p.spec.inputStreams ≠ []) (hs : s ∈ c.members home p.name) : c.Supplies s p := by
  obtain ⟨-, rfl, hpipeline⟩ := hc.mem_members.1 hs
  have hsource (input : String) (hinput : input ∈ p.spec.inputStreams) :
      ∃ x ∈ codebases, c.codebaseAt ⟨s.namespaceName, input⟩ = some x := by
    obtain ⟨i, hi, rfl⟩ := List.getElem_of_mem hinput
    have hi' : i < codebases.length := h.sources.length_eq ▸ hi
    exact ⟨_, List.getElem_mem hi', h.sources.get hi hi'⟩
  refine ⟨hpipeline ▸ h.pipeline, hinputs, fun input hinput => ?_, fun hfirst => ?_⟩
  · obtain ⟨x, -, hx⟩ := hsource input hinput
    exact ⟨x, hx⟩
  · obtain ⟨b, hb, hlower⟩ := h.preceded s hs hfirst
    obtain ⟨q, hq⟩ := Stage.exists_previousOf hb hlower
    have hmember : q ∈ c.members s.namespaceName p.name := (Stage.previousOf_eq_some hq).1
    refine ⟨q, hq, fun input hinput x hx => ?_⟩
    obtain ⟨x', hx', hcodebase⟩ := hsource input hinput
    rw [hcodebase] at hx
    cases hx
    exact Option.isSome_iff_exists.1 (h.published q hmember x hx')

/-- Different codebases are consumed in different streams. -/
theorem Coherent.codebase_eq_of_stream_eq (hc : c.Coherent) {predecessor : Option Stage}
    {inputs : List String} {ds : List Consumed}
    (hds : c.consumedForAll s p predecessor inputs = .ok ds) {d e : Consumed} (hd : d ∈ ds)
    (he : e ∈ ds) (h : e.stream = d.stream) : e.codebase = d.codebase := by
  obtain ⟨_, -, hd⟩ := (consumedForAll_mem hds).2 d hd
  obtain ⟨_, -, he⟩ := (consumedForAll_mem hds).2 e he
  obtain ⟨x, -, hx, hdstream⟩ := consumedFor_eq_ok.1 hd
  obtain ⟨y, -, hy, hestream⟩ := consumedFor_eq_ok.1 he
  cases predecessor with
  | none => rw [hx, hy, ← hdstream, ← hestream, h]
  | some q =>
      have hname := hc.imageStreams _ _ hdstream
      rw [← h, hc.imageStreams _ _ hestream] at hname
      rw [hx, hy]
      exact Promotion.verifiedName_injective hname

theorem TearingDown.retiresApart (h : c.TearingDown home p.name p codebases) (hc : c.Coherent)
    (hs : s ∈ c.members home p.name) : c.RetiresApart s := by
  obtain ⟨-, rfl, hpipeline⟩ := hc.mem_members.1 hs
  intro env ds hds
  obtain ⟨q, hq, hconsumed, -⟩ := retirement_eq_ok.1 hds
  rw [pipelineOf, hpipeline, h.pipeline] at hq
  obtain rfl : p = q := Except.ok.inj hq
  obtain ⟨names, hnames, predecessor, -, hall⟩ := consumed_eq_ok.1 hconsumed
  obtain rfl := inputs_eq_ok hnames
  have hnodup : (ds.map (·.codebase)).Nodup :=
    map_codebase_of_consumedForAll h.sources hall ▸ h.distinct
  refine (List.pairwise_map.1 hnodup).imp_of_mem fun {d e} hd he hne _ heq => hne ?_
  exact (hc.codebase_eq_of_stream_eq hall hd he heq).symm

end Cluster

/-! ### One reconcile -/

namespace Stage

variable {home : String} {p : Pipeline} {codebases : List String} {c : Cluster} {s : Stage}

open Cluster

/-- A stage of a pipeline that is torn down waits for a later one, or it goes. -/
theorem ensures_reconcile_tearingDown (config : Config) (now : Timestamp) (hc : c.Coherent)
    (h : c.TearingDown home p.name p codebases) (hinputs : p.spec.inputStreams ≠ [])
    (hs : s ∈ c.members home p.name) :
    (s.reconcile config now).Ensures NoFailure c fun r c' => (∃ action, r = .ok action) ∧
      (c' = c ∧ (∃ b ∈ c.members home p.name, s.spec.order < b.spec.order) ∨
        (∀ b ∈ c.members home p.name, b.spec.order ≤ s.spec.order) ∧ s.Finalized c c') := by
  obtain ⟨hstored, hhome, hname⟩ := hc.mem_members.1 hs
  obtain ⟨hdeleted, hfinalizers⟩ := h.leaving s hs
  have hfin : s.hasFinalizer = true := by simp [hasFinalizer, hfinalizers]
  have hsiblings : c.siblings s s.pipelineName = c.members home p.name := by
    rw [← hhome, ← hname]
    rfl
  cases hdep : s.hasDependents (c.siblings s s.pipelineName) with
  | true =>
      have hstate := deletionState_eq_pending hdeleted hfin hdep
      obtain ⟨b, hb, hwaits⟩ := hasDependents_eq_true.1 hdep
      rw [hsiblings] at hb
      simp only [reconcile, hdeleted, if_true]
      refine (ensures_reconcileDeletion_frame config s).mono ?_
      rintro r c' ⟨-, hwait⟩
      rw [hstate] at hwait
      obtain ⟨rfl, hr⟩ := hwait (by decide)
      have hok : r = .ok DeletionState.pendingDependents.action := by
        rcases hr with hok | ⟨_, _, hno⟩
        · exact hok
        · exact hno.elim
      refine ⟨⟨_, hok⟩, .inl ⟨rfl, b, hb, ?_⟩⟩
      -- All stages leave, so one of the same place is not waited for.
      rcases (waitsFor_eq_true.1 hwaits).2 with hlater | ⟨-, hlive⟩
      · exact hlater
      · rw [(h.leaving b hb).1] at hlive
        cases hlive
  | false =>
      refine (ensures_reconcile_finalizing config now hc hstored hdeleted hfin hdep
        (h.supplies hc hinputs hs) (h.retiresApart hc hs)).mono ?_
      rintro r c' ⟨rfl, hfinalized⟩
      refine ⟨⟨_, rfl⟩, .inr ⟨fun b hb => ?_, hfinalized⟩⟩
      have hfree := hasDependents_eq_false.1 hdep b (hsiblings ▸ hb)
      by_contra hlater
      -- A stage of the same name is the stage itself.
      have hne : b.name ≠ s.name := by
        intro hsame
        have hbhome := (hc.mem_members.1 hb).2.1
        have hkey : b.key = s.key := by rw [Stage.key, Stage.key, hbhome, hhome, hsame]
        obtain rfl := hc.eq_of_key_eq hb hs hkey
        omega
      rw [waitsFor_eq_true.2 ⟨hne, .inl (by omega)⟩] at hfree
      cases hfree

end Stage

namespace Cluster

variable {home : String} {p : Pipeline} {codebases : List String} {c c' : Cluster} {s b : Stage}

/-- The stages that are left when one has gone. -/
theorem TearingDown.mem_members_after (h : c.TearingDown home p.name p codebases) (hc : c.Coherent)
    (hc' : c'.Coherent) (hs : s ∈ c.members home p.name) (hfinalized : s.Finalized c c') :
    b ∈ c'.members home p.name ↔ b ∈ c.members home p.name ∧ b.key ≠ s.key := by
  have hgone : s.otherFinalizers = [] := by
    rw [Stage.otherFinalizers, (h.leaving s hs).2]
    decide
  rw [hc.mem_members, hc'.mem_members]
  by_cases hkey : b.key = s.key
  · have hnone : c'.stages.get? b.key = none := by
      rw [hkey]
      rcases hfinalized.letGo.finalizers with ⟨hnone, -⟩ | ⟨a, ha, -⟩
      · exact hnone
      · have hletGo := hfinalized.letGo
        rw [Stage.LetGo, ha] at hletGo
        exact absurd hgone hletGo.2.1
    rw [hnone]
    simp [hkey]
  · rw [hfinalized.others _ hkey]
    exact (and_iff_left hkey).symm

/-- The rest of the pipeline is still torn down when the last stage of it has gone. -/
theorem TearingDown.after (h : c.TearingDown home p.name p codebases) (hc : c.Coherent)
    (hc' : c'.Coherent) (hs : s ∈ c.members home p.name)
    (hlast : ∀ b ∈ c.members home p.name, b.spec.order ≤ s.spec.order)
    (hfinalized : s.Finalized c c') : c'.TearingDown home p.name p codebases := by
  have hmem (b : Stage) : b ∈ c'.members home p.name ↔ _ :=
    h.mem_members_after hc hc' hs hfinalized
  exact
    { pipeline := hfinalized.pipelines ▸ h.pipeline
      sources := by
        simp only [hfinalized.codebases]
        exact h.sources
      distinct := h.distinct
      leaving := fun b hb => h.leaving b ((hmem b).1 hb).1
      published := fun b hb x hx => by
        rw [hfinalized.codebases]
        exact h.published b ((hmem b).1 hb).1 x hx
      preceded := fun b hb hfirst => by
        obtain ⟨hb, -⟩ := (hmem b).1 hb
        obtain ⟨q, hq, hlower⟩ := h.preceded b hb hfirst
        refine ⟨q, (hmem q).2 ⟨hq, fun hkey => ?_⟩, hlower⟩
        -- The stage that has gone comes before none.
        obtain rfl := hc.eq_of_key_eq hq hs hkey
        exact absurd (hlast b hb) (by omega) }

end Cluster

/-! ### Rounds -/

namespace Cluster

/-- In the middle of a round, with the keys `ks` still to come. Of the last place in the order only
stages are left that have not had their turn. -/
structure TearingRound (home : String) (p : Pipeline) (codebases : List String)
    (places : Finset Int) (last : Int) (ks : List ObjectKey) (c : Cluster) : Prop
    extends TearingDown home p.name p codebases c where
  coherent : c.Coherent
  nodup : ks.Nodup
  present : ∀ k ∈ ks, ∃ s ∈ c.members home p.name, s.key = k
  placed : ∀ s ∈ c.members home p.name, s.spec.order ∈ places
  coming : ∀ s ∈ c.members home p.name, s.spec.order = last → s.key ∈ ks

end Cluster

namespace Stage

open Cluster

/-- One turn of a round. -/
theorem exists_ensures_tearingRound {home : String} {p : Pipeline} {codebases : List String}
    {places : Finset Int} {last : Int} {k : ObjectKey} {ks : List ObjectKey} {c : Cluster}
    (config : Config) (now : Timestamp) (hinputs : p.spec.inputStreams ≠ [])
    (hlast : ∀ o ∈ places, o ≤ last)
    (h : c.TearingRound home p codebases places last (k :: ks)) :
    ∃ s, c.stages.get? k = some s ∧ (s.reconcile config now).Ensures NoFailure c fun r c' =>
      (∃ action, r = .ok action) ∧ c'.TearingRound home p codebases places last ks := by
  have hc := h.coherent
  obtain ⟨⟨s, hs, rfl⟩, hpresent⟩ := List.forall_mem_cons.1 h.present
  obtain ⟨hnew, hnodup⟩ := List.nodup_cons.1 h.nodup
  refine ⟨s, (hc.mem_members.1 hs).1, ((hc.ensures _).and
    (ensures_reconcile_tearingDown config now hc h.toTearingDown hinputs hs)).mono ?_⟩
  rintro r c' ⟨hc', hok, hwaits | ⟨hlatest, hfinalized⟩⟩
  · obtain ⟨rfl, b, hb, hlater⟩ := hwaits
    refine ⟨hok, { h with nodup := hnodup, present := hpresent, coming := fun t ht hplace => ?_ }⟩
    rcases List.mem_cons.1 (h.coming t ht hplace) with hkey | hmem
    · -- The stage that waits is not one of the last.
      obtain rfl := hc.eq_of_key_eq ht hs hkey
      have hbound := hlast _ (h.placed b hb)
      omega
    · exact hmem
  · have hmem (b : Stage) : b ∈ c'.members home p.name ↔ _ :=
      h.mem_members_after hc hc' hs hfinalized
    refine ⟨hok, { h.after hc hc' hs hlatest hfinalized with
      coherent := hc', nodup := hnodup, present := ?_, placed := ?_, coming := ?_ }⟩
    · intro k hk
      obtain ⟨b, hb, rfl⟩ := hpresent k hk
      exact ⟨b, (hmem b).2 ⟨hb, fun hkey => hnew (hkey ▸ hk)⟩, rfl⟩
    · intro t ht
      exact h.placed t ((hmem t).1 ht).1
    · intro t ht hplace
      obtain ⟨ht, hne⟩ := (hmem t).1 ht
      exact (List.mem_cons.1 (h.coming t ht hplace)).resolve_left hne

end Stage

namespace World

open Cluster

variable {home : String} {p : Pipeline} {codebases : List String}

/-- A round goes well, and it takes the last place of the order away. -/
theorem round_tears_down {w : World} (hw : w.cluster.Reachable)
    (hquiet : w.observed.FailsWith NoFailure) (hinputs : p.spec.inputStreams ≠ [])
    (h : w.cluster.TearingDown home p.name p codebases) {r : Schedule}
    (hr : (r.map (·.2)).Perm (w.cluster.memberKeys home p.name)) {last : Int}
    (hlast : ∀ o ∈ w.cluster.orders home p.name, o ≤ last) :
    (∀ a ∈ w.answers r, ∃ action, a = some (.ok action)) ∧
      (w.follow r).observed.FailsWith NoFailure ∧
      (w.follow r).cluster.TearingDown home p.name p codebases ∧
      (w.follow r).cluster.orders home p.name ⊆ (w.cluster.orders home p.name).erase last := by
  have start : w.cluster.TearingRound home p codebases (w.cluster.orders home p.name) last
      (r.map (·.2)) :=
    { h with
      coherent := hw.coherent
      nodup := hr.nodup_iff.2 hw.coherent.nodup_memberKeys
      present := fun k hk => List.mem_map.1 (hr.mem_iff.1 hk)
      placed := fun s hs => mem_orders.2 ⟨s, hs, rfl⟩
      coming := fun s hs _ => hr.mem_iff.2 (List.mem_map_of_mem hs) }
  obtain ⟨hround, hquiet', -, hanswers⟩ :=
    follow_keeps (I := fun ks c => c.TearingRound home p codebases _ last ks) hquiet
      (fun now _ _ _ hturn => Stage.exists_ensures_tearingRound w.config now hinputs hlast hturn)
      start
  refine ⟨fun a ha => ?_, hquiet', hround.toTearingDown, fun o ho => ?_⟩
  · obtain ⟨x, rfl, action, rfl⟩ := hanswers a ha
    exact ⟨action, rfl⟩
  · obtain ⟨s, hs, rfl⟩ := mem_orders.1 ho
    refine Finset.mem_erase.2 ⟨fun hplace => ?_, hround.placed s hs⟩
    exact List.not_mem_nil (hround.coming s hs hplace)

/-- **A pipeline is torn down in as many rounds as its order has places**, and no reconcile fails on
the way. The pipeline has inputs, and it is stored under its own name. -/
theorem pipeline_tears_down {w : World} (hw : w.cluster.Reachable)
    (hquiet : w.observed.FailsWith NoFailure) {name : String}
    (h : w.cluster.TearingDown home name p codebases) (hname : p.name = name)
    (hinputs : p.spec.inputStreams ≠ []) {rounds : List Schedule}
    (hrounds : w.InRounds home name rounds) :
    (∀ a ∈ w.answers rounds.flatten, ∃ action, a = some (.ok action)) ∧
      ((w.cluster.orders home name).card ≤ rounds.length →
        (w.follow rounds.flatten).cluster.members home name = []) := by
  subst hname
  induction rounds generalizing w with
  | nil =>
      refine ⟨fun a ha => absurd ha List.not_mem_nil, fun hcard => ?_⟩
      have hnone := Finset.card_eq_zero.1 (Nat.le_zero.1 hcard)
      rw [orders, List.toFinset_eq_empty_iff, List.map_eq_nil_iff] at hnone
      exact hnone
  | cons r rounds ih =>
      obtain ⟨hr, hrounds⟩ := hrounds
      -- Without any stage left there is no last place either; then any bound will do.
      obtain ⟨last, hlast, hplace⟩ : ∃ last, (∀ o ∈ w.cluster.orders home p.name, o ≤ last) ∧
          ((w.cluster.orders home p.name).Nonempty → last ∈ w.cluster.orders home p.name) := by
        rcases (w.cluster.orders home p.name).eq_empty_or_nonempty with hnone | hsome
        · exact ⟨0, by simp [hnone], fun hsome => by simp [hnone] at hsome⟩
        · exact ⟨_, fun o ho => Finset.le_max' _ o ho, fun _ => Finset.max'_mem _ hsome⟩
      obtain ⟨hanswers, hquiet', htearing, horders⟩ :=
        round_tears_down hw hquiet hinputs h hr hlast
      obtain ⟨hrest, hend⟩ := ih (reachable_follow hw r) hquiet' htearing hrounds
      rw [List.flatten_cons, answers_append, follow_append]
      refine ⟨fun a ha => ?_, fun hcard => hend ?_⟩
      · rcases List.mem_append.1 ha with ha | ha
        · exact hanswers a ha
        · exact hrest a ha
      · have hfewer := Finset.card_le_card horders
        rw [List.length_cons] at hcard
        rcases (w.cluster.orders home p.name).eq_empty_or_nonempty with hnone | hsome
        · rw [hnone, Finset.erase_empty, Finset.card_empty] at hfewer
          omega
        · rw [Finset.card_erase_of_mem (hplace hsome)] at hfewer
          omega

open Sample in
/-- Of two stages the earlier one waits in the first round and goes in the second. -/
theorem pipeline_tears_down_of_two_stages :
    let w := ({} : World).run twoStagesLeaving
    let rounds : List Schedule := [[(.epoch, key "dev"), (.epoch, key "qa")], [(.epoch, key "dev")]]
    (∀ a ∈ w.answers rounds.flatten, ∃ action, a = some (.ok action)) ∧
      (w.follow rounds.flatten).cluster.members "edp" "mobile" = [] := by
  intro w rounds
  let p : Pipeline := Resource.stored pipeline "edp" (Cluster.versionText 1)
  obtain ⟨hquiet, htearing, hrounds, hcard⟩ : w.observed.FailsWith NoFailure ∧
      w.cluster.TearingDown "edp" "mobile" p ["app"] ∧ w.InRounds "edp" "mobile" rounds ∧
      (w.cluster.orders "edp" "mobile").card ≤ rounds.length := by
    decide +kernel
  obtain ⟨hanswers, hend⟩ :=
    pipeline_tears_down (reachable_run _) hquiet htearing rfl (by decide) hrounds
  exact ⟨hanswers, hend hcard⟩

open Sample in
/-- A pipeline without inputs is not torn down, and one that is stored without a name is not found
by its later stages. -/
theorem teardown_fails_without_inputs_or_name :
    (let w := ({} : World).run leavingWithoutInputs
      let r : Schedule := [(.epoch, key "dev")]
      w.observed.FailsWith NoFailure ∧
        (∃ p, w.cluster.TearingDown "edp" "mobile" p [] ∧ p.name = "mobile") ∧
        w.InRounds "edp" "mobile" [r] ∧ ¬ ∀ a ∈ w.answers r, ∃ action, a = some (.ok action)) ∧
    (let w := ({} : World).run leavingUnnamed
      let r : Schedule := [(.epoch, key "qa"), (.epoch, key "dev")]
      w.observed.FailsWith NoFailure ∧
        (∃ p, w.cluster.TearingDown "edp" "" p ["app"] ∧ p.spec.inputStreams ≠ []) ∧
        w.InRounds "edp" "" [r] ∧ ¬ ∀ a ∈ w.answers r, ∃ action, a = some (.ok action)) := by
  constructor
  · intro w r
    let p : Pipeline :=
      Resource.stored { pipeline with spec.inputStreams := [] } "edp" (Cluster.versionText 1)
    obtain ⟨hquiet, htearing, hround, hfails⟩ : w.observed.FailsWith NoFailure ∧
        w.cluster.TearingDown "edp" "mobile" p [] ∧ w.InRounds "edp" "mobile" [r] ∧
        w.answers r = [some (.error (.configuration "CDPipeline edp/mobile"
          "pipeline has no input docker streams"))] := by
      decide +kernel
    refine ⟨hquiet, ⟨p, htearing, rfl⟩, hround, fun hok => ?_⟩
    obtain ⟨action, h⟩ := hok _ (hfails ▸ List.mem_cons_self)
    cases h
  · intro w r
    let p : Pipeline :=
      Resource.stored { pipeline with metadata := { generateName := some "mobile" } } "edp"
        (Cluster.versionText 1)
    obtain ⟨hquiet, htearing, hround, hfails⟩ : w.observed.FailsWith NoFailure ∧
        w.cluster.TearingDown "edp" "" p ["app"] ∧ w.InRounds "edp" "" [r] ∧
        w.answers r = [some (.error (.notFound "Stage" "edp" "mobile order<1")),
          some (.ok (.requeue 10))] := by
      decide +kernel
    refine ⟨hquiet, ⟨p, htearing, by decide⟩, hround, fun hok => ?_⟩
    obtain ⟨action, h⟩ := hok _ (hfails ▸ List.mem_cons_self)
    cases h

end World

end Conveyor
