import Conveyor.Proofs.FixedPoint
import Conveyor.Proofs.Rounds
import Conveyor.Proofs.Streams

/-!
The coming up of a whole pipeline. Its stages are reconciled in rounds, and a stage that does not
find the published streams of its predecessor fails, to be reconciled again in the next round. No
reconcile takes a stream away or brings in a new codebase, not even where a stage publishes into an
input of its pipeline; so what a stage has published stays enough for those after it. The places of
the order settle one after the other then, at least one in each round.
-/

namespace Conveyor

open Session Cluster

/-- A stage that no foreign controller has can be put under its pipeline. -/
theorem Stage.mayBelongTo_of_free {s : Stage} (p : Pipeline)
    (h : ∀ o ∈ s.ownerReferences, o.isController = true → isPipelineOwner o = true) :
    s.MayBelongTo p := by
  have hnone : (s.ownerReferences.filter (!isPipelineOwner ·)).find? OwnerReference.isController =
      none := by
    refine List.find?_eq_none.2 fun o ho hcontroller => ?_
    obtain ⟨hmem, hother⟩ := List.mem_filter.1 ho
    simp [h o hmem hcontroller] at hother
  unfold MayBelongTo ownersWith
  dsimp only
  rw [hnone]
  exact .inr ⟨_, rfl⟩

namespace Cluster

variable {config : Config} {home name : String} {p : Pipeline} {c c' : Cluster} {s b : Stage}

/-- For the stages of the pipeline `p`, which is stored under `name`, there is all that the operator
does not make itself. -/
@[mk_iff]
structure Provisionable (config : Config) (home name : String) (p : Pipeline) (c : Cluster) :
    Prop where
  pipeline : c.pipelines.get? ⟨home, name⟩ = some p
  inputs : p.spec.inputStreams ≠ []
  sources : ∀ input ∈ p.spec.inputStreams, (c.codebaseAt ⟨home, input⟩).isSome = true
  registry : (c.components.get? ⟨home, Component.registryName⟩).isSome = true
  live : ∀ s ∈ c.members home name, s.isBeingDeleted = false
  orders : ∀ s ∈ c.members home name, 0 ≤ s.spec.order
  first : ∃ s ∈ c.members home name, s.spec.order = 0
  targets : config.managesNamespaces = false →
    ∀ s ∈ c.members home name, c.namespaces.contains s.targetNamespace = true

instance : Decidable (c.Provisionable config home name p) :=
  decidable_of_iff' _ (provisionable_iff config home name p c)

/-! ### Codebases and streams -/

/-- An input of the pipeline is about the codebase. -/
def Feeds (home : String) (p : Pipeline) (x : String) (c : Cluster) : Prop :=
  ∃ input ∈ p.spec.inputStreams, c.codebaseAt ⟨home, input⟩ = some x

/-- A stage has streams of its own for all codebases of the pipeline. -/
def HasPublished (home : String) (p : Pipeline) (s : Stage) (c : Cluster) : Prop :=
  ∀ x, c.Feeds home p x →
    (c.codebaseAt ⟨home, Promotion.verifiedName p.name s.spec.name x⟩).isSome = true

/-- What a stage publishes are the codebases of the pipeline. -/
theorem mem_codebases_iff {xs : List String} (hxs : c.codebases s p = .ok xs) {x : String} :
    x ∈ xs ↔ c.Feeds s.namespaceName p x := by
  constructor
  · intro hx
    obtain ⟨ds, hds, rfl⟩ := codebases_eq_ok.1 hxs
    obtain ⟨d, hd, rfl⟩ := List.mem_map.1 hx
    obtain ⟨names, hnames, predecessor, -, hall⟩ := consumed_eq_ok.1 hds
    obtain rfl := inputs_eq_ok hnames
    obtain ⟨input, hinput, hconsumed⟩ := (consumedForAll_mem hall).2 d hd
    obtain ⟨source, hsource, hcodebase, -⟩ := consumedFor_eq_ok.1 hconsumed
    exact ⟨input, hinput, codebaseAt_eq_some.2 ⟨source, hsource, hcodebase.symm⟩⟩
  · rintro ⟨input, hinput, hx⟩
    obtain ⟨source, hsource, rfl⟩ := codebaseAt_eq_some.1 hx
    exact mem_codebases hxs hinput hsource

namespace PromotesOnly

variable (h : c.PromotesOnly s c')
include h

/-- No stream goes. -/
theorem isSome_codebaseAt {k : ObjectKey} (hk : (c.codebaseAt k).isSome = true) :
    (c'.codebaseAt k).isSome = true := by
  rcases h with hsame | ⟨plan, -, hpromotes⟩
  · rwa [codebaseAt_congr hsame]
  · rcases hpromotes k with hsame | ⟨x, -, -, hx⟩
    · rwa [codebaseAt, hsame]
    · rw [hx]
      rfl

/-- The pipeline gets no new codebase, since what is published in an input was one already. -/
theorem feeds (hp : c.pipelineOf s = .ok p) {x : String} (hx : c'.Feeds s.namespaceName p x) :
    c.Feeds s.namespaceName p x := by
  obtain ⟨input, hinput, hx⟩ := hx
  rcases h with hsame | ⟨plan, hplan, hpromotes⟩
  · exact ⟨input, hinput, codebaseAt_congr hsame _ ▸ hx⟩
  · rcases hpromotes ⟨s.namespaceName, input⟩ with hsame | ⟨y, hy, -, hwritten⟩
    · rw [codebaseAt, hsame] at hx
      exact ⟨input, hinput, hx⟩
    · obtain rfl : p = plan.pipeline := Except.ok.inj (hp.symm.trans hplan.pipeline)
      rw [hwritten] at hx
      cases hx
      exact (mem_codebases_iff hplan.codebases).1 hy

theorem hasPublished (hp : c.pipelineOf s = .ok p) (hb : c.HasPublished s.namespaceName p b) :
    c'.HasPublished s.namespaceName p b := fun x hx =>
  h.isSome_codebaseAt (hb x (h.feeds hp hx))

end PromotesOnly

/-! ### The stages during a reconcile -/

namespace Kept

variable (h : Kept config s c c') (hs : c.stages.get? s.key = some s)
include h hs

theorem exists_stage {k : ObjectKey} {t : Stage} (ht : c.stages.get? k = some t) :
    ∃ t', c'.stages.get? k = some t' ∧ t'.Like t := by
  by_cases hk : k = s.key
  · subst hk
    rw [hs] at ht
    cases ht
    exact h.stored ⟨s, hs, .refl s⟩
  · exact ⟨t, (h.others k hk).trans ht, .refl t⟩

theorem exists_stage_before {k : ObjectKey} {t' : Stage} (ht' : c'.stages.get? k = some t') :
    ∃ t, c.stages.get? k = some t ∧ t'.Like t := by
  by_cases hk : k = s.key
  · subst hk
    obtain ⟨t, ht, hlike⟩ := h.stored ⟨s, hs, .refl s⟩
    rw [ht'] at ht
    cases ht
    exact ⟨s, hs, hlike⟩
  · exact ⟨t', (h.others k hk).symm.trans ht', .refl t'⟩

variable (hc : c.Coherent) (hc' : c'.Coherent)
include hc hc'

/-- The pipeline keeps its stages. -/
theorem exists_member (hb : b ∈ c.members home name) : ∃ b' ∈ c'.members home name, b'.Like b := by
  obtain ⟨hstored, hhome, hname⟩ := hc.mem_members.1 hb
  obtain ⟨b', hb', hlike⟩ := h.exists_stage hs hstored
  refine ⟨b', hc'.mem_members.2 ⟨hlike.key ▸ hb', ?_, ?_⟩, hlike⟩
  · exact hlike.home.trans hhome
  · exact hlike.pipelineName.trans hname

/-- The pipeline gets no stages. -/
theorem exists_member_before {b' : Stage} (hb' : b' ∈ c'.members home name) :
    ∃ b ∈ c.members home name, b'.Like b := by
  obtain ⟨hstored, hhome, hname⟩ := hc'.mem_members.1 hb'
  obtain ⟨b, hb, hlike⟩ := h.exists_stage_before hs hstored
  refine ⟨b, hc.mem_members.2 ⟨hlike.key ▸ hb, ?_, ?_⟩, hlike⟩
  · exact hlike.home.symm.trans hhome
  · exact hlike.pipelineName.symm.trans hname

theorem mem_memberKeys {k : ObjectKey} :
    k ∈ c'.memberKeys home name ↔ k ∈ c.memberKeys home name := by
  rw [memberKeys, memberKeys, List.mem_map, List.mem_map]
  constructor
  · rintro ⟨b', hb', rfl⟩
    obtain ⟨b, hb, hlike⟩ := h.exists_member_before hs hc hc' hb'
    exact ⟨b, hb, hlike.key.symm⟩
  · rintro ⟨b, hb, rfl⟩
    obtain ⟨b', hb', hlike⟩ := h.exists_member hs hc hc' hb
    exact ⟨b', hb', hlike.key⟩

end Kept

/-! ### The places of the order -/

/-- How many places come before. -/
def rank (places : Finset Int) (order : Int) : Nat := (places.filter (· < order)).card

theorem rank_lt_rank {places : Finset Int} {o o' : Int} (ho : o ∈ places) (hlt : o < o') :
    rank places o < rank places o' := by
  refine Finset.card_lt_card (Finset.ssubset_iff_subset_ne.2 ⟨fun x hx => ?_, fun heq => ?_⟩)
  · obtain ⟨hmem, hx⟩ := Finset.mem_filter.1 hx
    exact Finset.mem_filter.2 ⟨hmem, hx.trans hlt⟩
  · have hself : o ∈ places.filter (· < o) := heq ▸ Finset.mem_filter.2 ⟨ho, hlt⟩
    exact absurd (Finset.mem_filter.1 hself).2 (lt_irrefl o)

theorem rank_lt_card {places : Finset Int} {o : Int} (ho : o ∈ places) :
    rank places o < places.card :=
  Finset.card_lt_card (Finset.filter_ssubset.2 ⟨o, ho, lt_irrefl o⟩)

/-- The stages of the first `n` places have published all codebases. -/
structure Settling (config : Config) (home : String) (p : Pipeline) (places : Finset Int) (n : Nat)
    (c : Cluster) : Prop extends Provisionable config home p.name p c where
  coherent : c.Coherent
  owner : ∀ s ∈ c.members home p.name, s.MayBelongTo p
  placed : ∀ s ∈ c.members home p.name, s.spec.order ∈ places
  published : ∀ s ∈ c.members home p.name, rank places s.spec.order < n → c.HasPublished home p s

/-- The stage at a key was provisioned and has published all codebases. -/
def Stands (home : String) (p : Pipeline) (k : ObjectKey) (c : Cluster) : Prop :=
  ∃ t, c.stages.get? k = some t ∧ t.Provisioned p ∧ c.HasPublished home p t

/-- In the middle of a round over the stages at the keys `all`, with the keys `ks` still to come.
The stages of the place that is next stand as soon as they have had their turn. -/
structure SettlingRound (config : Config) (home : String) (p : Pipeline) (places : Finset Int)
    (n : Nat) (all ks : List ObjectKey) (c : Cluster) : Prop
    extends Settling config home p places n c where
  keys : ∀ k, k ∈ c.memberKeys home p.name ↔ k ∈ all
  coming : ∀ k ∈ ks, k ∈ all
  stands : ∀ s ∈ c.members home p.name, rank places s.spec.order ≤ n → s.key ∉ ks →
    c.Stands home p s.key

section

variable {places : Finset Int} {n : Nat}

theorem Settling.pipelineOf (h : c.Settling config home p places n)
    (hs : s ∈ c.members home p.name) : c.pipelineOf s = .ok p := by
  obtain ⟨-, rfl, hname⟩ := h.coherent.mem_members.1 hs
  exact found_eq_ok.2 (hname ▸ h.pipeline)

/-- A stage of the next place finds all that it consumes. -/
theorem Settling.supplies (h : c.Settling config home p places n) (hs : s ∈ c.members home p.name)
    (hn : rank places s.spec.order ≤ n) : c.Supplies s p := by
  obtain ⟨-, rfl, hname⟩ := h.coherent.mem_members.1 hs
  refine ⟨hname ▸ h.pipeline, h.inputs, fun input hinput => ?_, fun hfirst => ?_⟩
  · exact Option.isSome_iff_exists.1 (h.sources input hinput)
  · obtain ⟨b, hb, hzero⟩ := h.first
    have hlater : b.spec.order < s.spec.order := by
      have hnonneg := h.orders s hs
      omega
    obtain ⟨q, hq⟩ := Stage.exists_previousOf hb hlater
    obtain ⟨hmember, hlower⟩ := Stage.previousOf_eq_some hq
    refine ⟨q, hq, fun input hinput x hx => Option.isSome_iff_exists.1 ?_⟩
    have hrank := rank_lt_rank (h.placed q hmember) hlower
    exact h.published q hmember (by omega) x ⟨input, hinput, hx⟩

/-- A stage that finds all that it consumes finds all that its provisioning depends on. -/
theorem Settling.exists_plans (h : c.Settling config home p places n)
    (hs : s ∈ c.members home p.name) (hsupplies : c.Supplies s p) :
    ∃ plan, c.Plans config s plan := by
  obtain ⟨hstored, hhome, -⟩ := h.coherent.mem_members.1 hs
  obtain ⟨hp, ds, hds⟩ := supplies_iff.1 hsupplies
  obtain ⟨o, ho⟩ := Option.isSome_iff_exists.1 h.registry
  refine ⟨⟨p, ds.map (·.codebase), o.spec.url⟩, hp, ⟨s, hstored, h.owner s hs⟩, ?_,
    codebases_eq_ok.2 ⟨ds, hds, rfl⟩, ?_⟩
  · cases hm : config.managesNamespaces with
    | true => exact .inl rfl
    | false => exact .inr (h.targets hm s hs)
  · rw [registryUrl, hhome, ho]
    rfl

/-- A reconcile of any stage of the pipeline, however it ends, takes nothing of this back. -/
theorem Settling.after (h : c.Settling config home p places n) (hc' : c'.Coherent)
    (hs : s ∈ c.members home p.name) (hkept : Kept config s c c') (hstreams : c.PromotesOnly s c') :
    c'.Settling config home p places n := by
  have hc := h.coherent
  have hp := h.pipelineOf hs
  obtain ⟨hstored, rfl, -⟩ := hc.mem_members.1 hs
  -- Every stage is like one of before.
  have hbefore {b' : Stage} (hb' : b' ∈ c'.members s.namespaceName p.name) :=
    hkept.exists_member_before hstored hc hc' hb'
  exact
    { pipeline := hkept.pipelines ▸ h.pipeline
      inputs := h.inputs
      sources := fun input hinput => hstreams.isSome_codebaseAt (h.sources input hinput)
      registry := hkept.components ▸ h.registry
      live := fun b' hb' => by
        obtain ⟨b, hb, hlike⟩ := hbefore hb'
        exact hlike.isBeingDeleted.trans (h.live b hb)
      orders := fun b' hb' => by
        obtain ⟨b, hb, hlike⟩ := hbefore hb'
        exact hlike.spec ▸ h.orders b hb
      first := by
        obtain ⟨b, hb, hzero⟩ := h.first
        obtain ⟨b', hb', hlike⟩ := hkept.exists_member hstored hc hc' hb
        exact ⟨b', hb', hlike.spec ▸ hzero⟩
      targets := fun hm b' hb' => by
        obtain ⟨b, hb, hlike⟩ := hbefore hb'
        rw [hkept.required hm, hlike.targetNamespace]
        exact h.targets hm b hb
      coherent := hc'
      owner := fun b' hb' => by
        by_cases hkey : b'.key = s.key
        · obtain ⟨t, ht, hmay⟩ := (hkept.owner p hp).2 ⟨s, hstored, h.owner s hs⟩
          rw [← hkey, (hc'.mem_members.1 hb').1] at ht
          cases ht
          exact hmay
        · obtain ⟨hb', hhome, hname⟩ := hc'.mem_members.1 hb'
          rw [hkept.others _ hkey] at hb'
          exact h.owner b' (hc.mem_members.2 ⟨hb', hhome, hname⟩)
      placed := fun b' hb' => by
        obtain ⟨b, hb, hlike⟩ := hbefore hb'
        exact hlike.spec ▸ h.placed b hb
      published := fun b' hb' hn => by
        obtain ⟨b, hb, hlike⟩ := hbefore hb'
        rw [hlike.spec] at hn
        have hpublished := hstreams.hasPublished hp (h.published b hb hn)
        rwa [HasPublished, ← hlike.spec] at hpublished }

end

end Cluster

/-! ### One reconcile -/

namespace Stage

variable {config : Config} {home : String} {p : Pipeline} {places : Finset Int} {n : Nat}
  {c : Cluster} {s : Stage}

/-- The stage is provisioned when it finds all that it consumes. When it does not, nothing is lost
for the others. -/
theorem ensures_reconcile_settling (now : Timestamp) (h : c.Settling config home p places n)
    (hs : s ∈ c.members home p.name) :
    (s.reconcile config now).Ensures NoFailure c fun r c' =>
      c'.Settling config home p places n ∧ Kept config s c c' ∧ c.PromotesOnly s c' ∧
        (c.Supplies s p → (∃ action, r = .ok action) ∧ c'.Stands home p s.key) := by
  have hc := h.coherent
  have hp := h.pipelineOf hs
  have hlive := h.live s hs
  obtain ⟨hstored, hhome, hname⟩ := hc.mem_members.1 hs
  have hnames : c.NamesPipeline s := by
    intro q hq
    rw [hp] at hq
    cases hq
    exact hname.symm
  have hreconcile : (s.reconcile config now).Ensures NoFailure c (Effect _ config s _ _ _ c) :=
    ensures_reconcile config now hc hstored hlive hnames
  refine ((hreconcile.and (ensures_reconcile_streams config now hc hstored hlive hnames)).and
    (hc.ensures _)).mono ?_
  rintro r c' ⟨⟨heffect, hstreams⟩, hc'⟩
  refine ⟨h.after hc' hs heffect.kept hstreams, heffect.kept, hstreams, fun hsupplies => ?_⟩
  cases r with
  | error e =>
      obtain ⟨plan, hplan⟩ := h.exists_plans hs hsupplies
      rcases heffect.failure e rfl with ⟨_, hno⟩ | hno
      · exact hno.elim
      · exact absurd hplan (hno plan)
  | ok a =>
      obtain ⟨plan, t, hplan, -, hlike, hfurnished⟩ := furnished_of_effect hstored heffect
      obtain rfl : p = plan.pipeline := Except.ok.inj (hp.symm.trans hplan.pipeline)
      refine ⟨⟨a, rfl⟩, t, hlike.key ▸ hfurnished.stored, hfurnished.provisioned, fun x hx => ?_⟩
      obtain ⟨xs, hxs, hsub⟩ := hfurnished.codebases
      rw [← hhome, ← hlike.home] at hx
      obtain ⟨v, hv, -, -⟩ := hfurnished.streams x (hsub x ((mem_codebases_iff hxs).2 hx))
      rw [Plan.streamKey, hlike.home, hhome] at hv
      rw [codebaseAt, hv]
      rfl

/-- One turn of a round. When the place that settles in the round is the last one, the turn goes
well, whichever stage has it. -/
theorem exists_ensures_settlingRound {k : ObjectKey} {all ks : List ObjectKey}
    (now : Timestamp) (h : c.SettlingRound config home p places n all (k :: ks)) :
    ∃ s, c.stages.get? k = some s ∧ (s.reconcile config now).Ensures NoFailure c fun r c' =>
      (places.card ≤ n + 1 → ∃ action, r = .ok action) ∧
        c'.SettlingRound config home p places n all ks := by
  have hc := h.coherent
  obtain ⟨hk, hrest⟩ := List.forall_mem_cons.1 h.coming
  obtain ⟨s, hs, rfl⟩ := List.mem_map.1 ((h.keys k).2 hk)
  have hp := h.pipelineOf hs
  obtain ⟨hstored, hhome, -⟩ := hc.mem_members.1 hs
  refine ⟨s, hstored, (ensures_reconcile_settling now h.toSettling hs).mono ?_⟩
  rintro r c' ⟨hsettling, hkept, hstreams, hturn⟩
  have hc' := hsettling.coherent
  refine ⟨fun hcard => ?_, { hsettling with keys := fun k => ?_, coming := hrest, stands := ?_ }⟩
  · have hrank := rank_lt_card (h.placed s hs)
    exact (hturn (h.supplies hs (by omega))).1
  · exact (hkept.mem_memberKeys hstored hc hc').trans (h.keys k)
  · intro b' hb' hn hnew
    by_cases hkey : b'.key = s.key
    · -- The stage itself has just had its turn.
      obtain ⟨b, hb, hlike⟩ := hkept.exists_member_before hstored hc hc' hb'
      obtain rfl := hc.eq_of_key_eq hb hs (hlike.key.symm.trans hkey)
      rw [hkey]
      exact (hturn (h.supplies hs (hlike.spec ▸ hn))).2
    · -- Another one is as it was, and so are its streams.
      obtain ⟨hstored', hhome', hname'⟩ := hc'.mem_members.1 hb'
      have hbefore := hkept.others _ hkey
      have hb : b' ∈ c.members home p.name :=
        hc.mem_members.2 ⟨hbefore.symm.trans hstored', hhome', hname'⟩
      have hnew : b'.key ∉ s.key :: ks := by
        rw [List.mem_cons, not_or]
        exact ⟨hkey, hnew⟩
      obtain ⟨t, ht, hprovisioned, hpublished⟩ := h.stands b' hb hn hnew
      subst hhome
      exact ⟨t, hbefore.trans ht, hprovisioned, hstreams.hasPublished hp hpublished⟩

end Stage

/-! ### Rounds -/

namespace World

open Cluster

variable {home : String} {p : Pipeline} {places : Finset Int} {n : Nat} {w : World}

/-- One more place has settled after a round. When it was the last one, the round has gone well. -/
theorem round_settles (hquiet : w.observed.FailsWith NoFailure)
    (h : w.cluster.Settling w.config home p places n) {r : Schedule}
    (hr : (r.map (·.2)).Perm (w.cluster.memberKeys home p.name)) :
    (w.follow r).observed.FailsWith NoFailure ∧
      (w.follow r).cluster.Settling (w.follow r).config home p places (n + 1) ∧
      (∀ k, k ∈ (w.follow r).cluster.memberKeys home p.name ↔
        k ∈ w.cluster.memberKeys home p.name) ∧
      (places.card ≤ n + 1 → (∀ a ∈ w.answers r, ∃ action, a = some (.ok action)) ∧
        ∀ k ∈ w.cluster.memberKeys home p.name, (w.follow r).cluster.Stands home p k) := by
  have start : w.cluster.SettlingRound w.config home p places n
      (w.cluster.memberKeys home p.name) (r.map (·.2)) :=
    { h with
      keys := fun _ => Iff.rfl
      coming := fun _ hk => hr.mem_iff.1 hk
      stands := fun s hs _ hnew => absurd (hr.mem_iff.2 (List.mem_map_of_mem hs)) hnew }
  obtain ⟨hround, hquiet', hconfig, hanswers⟩ :=
    follow_keeps (I := fun ks c => c.SettlingRound w.config home p places n _ ks) hquiet
      (fun now _ _ _ hturn => Stage.exists_ensures_settlingRound now hturn) start
  have hstands (s : Stage) (hs : s ∈ (w.follow r).cluster.members home p.name)
      (hn : rank places s.spec.order ≤ n) : (w.follow r).cluster.Stands home p s.key :=
    hround.stands s hs hn List.not_mem_nil
  refine ⟨hquiet', ?_, hround.keys, fun hcard => ⟨fun a ha => ?_, fun k hk => ?_⟩⟩
  · rw [hconfig]
    refine { hround.toSettling with published := fun s hs hn => ?_ }
    obtain ⟨t, ht, -, hpublished⟩ := hstands s hs (by omega)
    rw [(hround.coherent.mem_members.1 hs).1] at ht
    cases ht
    exact hpublished
  · obtain ⟨x, rfl, hx⟩ := hanswers a ha
    obtain ⟨action, rfl⟩ := hx hcard
    exact ⟨action, rfl⟩
  · obtain ⟨s, hs, rfl⟩ := List.mem_map.1 ((hround.keys k).2 hk)
    have hrank := rank_lt_card (hround.placed s hs)
    exact hstands s hs (by omega)

/-- As many places as there were rounds have settled. -/
theorem rounds_settle (hquiet : w.observed.FailsWith NoFailure)
    (h : w.cluster.Settling w.config home p places n) {rounds : List Schedule}
    (hrounds : w.InRounds home p.name rounds) :
    (w.follow rounds.flatten).observed.FailsWith NoFailure ∧
      (w.follow rounds.flatten).cluster.Settling (w.follow rounds.flatten).config home p places
        (n + rounds.length) ∧
      ∀ k, k ∈ (w.follow rounds.flatten).cluster.memberKeys home p.name ↔
        k ∈ w.cluster.memberKeys home p.name := by
  induction rounds generalizing w n with
  | nil => exact ⟨hquiet, h, fun _ => Iff.rfl⟩
  | cons r rounds ih =>
      obtain ⟨hr, hrounds⟩ := hrounds
      obtain ⟨hquiet', hsettling, hsame, -⟩ := round_settles hquiet h hr
      obtain ⟨hquiet'', hsettled, hsame'⟩ := ih hquiet' hsettling hrounds
      rw [List.flatten_cons, follow_append, List.length_cons, Nat.add_comm rounds.length,
        ← Nat.add_assoc]
      exact ⟨hquiet'', hsettled, fun k => (hsame' k).trans (hsame k)⟩

/-- **A pipeline comes up in as many rounds as its order has places**, and from then on every round
goes well: each stage is reconciled in it with success, and it is stored as available. The pipeline
is stored under its own name. -/
theorem pipeline_converges {w : World} (hw : w.cluster.Reachable)
    (hquiet : w.observed.FailsWith NoFailure) {name : String}
    (h : w.cluster.Provisionable w.config home name p) (hname : p.name = name)
    (hfree : ∀ s ∈ w.cluster.members home name, ∀ o ∈ s.ownerReferences, o.isController = true →
      Stage.isPipelineOwner o = true)
    {rounds : List Schedule} {last : Schedule} (hrounds : w.InRounds home name (rounds ++ [last]))
    (hcard : (w.cluster.orders home name).card ≤ (rounds ++ [last]).length) :
    (last.map (·.2)).Perm (w.cluster.memberKeys home name) ∧
      (∀ a ∈ (w.follow rounds.flatten).answers last, ∃ action, a = some (.ok action)) ∧
      ∀ k ∈ w.cluster.memberKeys home name, ∃ t status,
        (w.follow (rounds ++ [last]).flatten).cluster.stages.get? k = some t ∧
          t.status = some status ∧ status.available = true ∧ status.result = "success" := by
  subst hname
  have hsettling : w.cluster.Settling w.config home p (w.cluster.orders home p.name) 0 :=
    { h with
      coherent := hw.coherent
      owner := fun s hs => Stage.mayBelongTo_of_free p (hfree s hs)
      placed := fun s hs => mem_orders.2 ⟨s, hs, rfl⟩
      published := fun s hs hn => absurd hn (Nat.not_lt_zero _) }
  obtain ⟨hrounds, hlast, -⟩ := inRounds_append.1 hrounds
  obtain ⟨hquiet', hsettled, hsame⟩ := rounds_settle hquiet hsettling hrounds
  obtain ⟨-, -, -, hend⟩ := round_settles hquiet' hsettled hlast
  rw [List.length_append, List.length_singleton] at hcard
  obtain ⟨hanswers, hstands⟩ := hend (by omega)
  refine ⟨hlast.trans ?_, hanswers, fun k hk => ?_⟩
  · exact (List.perm_ext_iff_of_nodup hsettled.coherent.nodup_memberKeys
      hw.coherent.nodup_memberKeys).2 hsame
  · obtain ⟨t, ht, hprovisioned, -⟩ := hstands k ((hsame k).2 hk)
    obtain ⟨status, hsome, hstatus⟩ := hprovisioned.status
    rw [List.flatten_append, List.flatten_singleton, follow_append]
    refine ⟨t, status, ht, hsome, ?_, ?_⟩
    · rw [hstatus]
      rfl
    · rw [hstatus]
      rfl

open Sample in
/-- Of two stages the later one is tried too early in the first round, and both are available after
the second one. -/
theorem pipeline_converges_of_two_stages :
    let w := ({} : World).run twoStages
    let r : Schedule := [(.epoch, key "qa"), (.epoch, key "dev")]
    let missing := Promotion.lookupError Kind.imageStream.name "edp" "mobile-dev-app-verified"
    w.answers r = [some (.error missing), some (.ok .awaitChange)] ∧
      (r.map (·.2)).Perm (w.cluster.memberKeys "edp" "mobile") ∧
      (∀ a ∈ (w.follow [r].flatten).answers r, ∃ action, a = some (.ok action)) ∧
      ∀ k ∈ w.cluster.memberKeys "edp" "mobile", ∃ t status,
        (w.follow ([r] ++ [r]).flatten).cluster.stages.get? k = some t ∧
          t.status = some status ∧ status.available = true ∧ status.result = "success" := by
  intro w r missing
  let p : Pipeline := Resource.stored pipeline "edp" (Cluster.versionText 1)
  obtain ⟨hfirst, hquiet, h, hfree, hrounds, hcard⟩ :
      w.answers r = [some (.error missing), some (.ok .awaitChange)] ∧
        w.observed.FailsWith NoFailure ∧ w.cluster.Provisionable w.config "edp" "mobile" p ∧
        (∀ s ∈ w.cluster.members "edp" "mobile", ∀ o ∈ s.ownerReferences, o.isController = true →
          Stage.isPipelineOwner o = true) ∧
        w.InRounds "edp" "mobile" ([r] ++ [r]) ∧
        (w.cluster.orders "edp" "mobile").card ≤ ([r] ++ [r]).length := by
    decide +kernel
  exact ⟨hfirst, pipeline_converges (reachable_run _) hquiet h rfl hfree hrounds hcard⟩

open Sample in
/-- The stage of a pipeline that is stored without a name is provisioned, and no second time. -/
theorem pipeline_fails_again_without_name :
    let w := ({} : World).run arrangingUnnamed
    let r : Schedule := [(.epoch, key "dev")]
    w.observed.FailsWith NoFailure ∧
      (∃ p, w.cluster.Provisionable w.config "edp" "" p) ∧
      (∀ s ∈ w.cluster.members "edp" "", ∀ o ∈ s.ownerReferences, o.isController = true →
        Stage.isPipelineOwner o = true) ∧
      (r.map (·.2)).Perm (w.cluster.memberKeys "edp" "") ∧
      (w.cluster.orders "edp" "").card = 1 ∧
      ¬ ∀ a ∈ (w.follow r).answers r, ∃ action, a = some (.ok action) := by
  intro w r
  let p : Pipeline :=
    Resource.stored { pipeline with metadata := { generateName := some "mobile" } } "edp"
      (Cluster.versionText 1)
  obtain ⟨hquiet, h, hfree, hround, hcard, hfails⟩ : w.observed.FailsWith NoFailure ∧
      w.cluster.Provisionable w.config "edp" "" p ∧
      (∀ s ∈ w.cluster.members "edp" "", ∀ o ∈ s.ownerReferences, o.isController = true →
        Stage.isPipelineOwner o = true) ∧
      (r.map (·.2)).Perm (w.cluster.memberKeys "edp" "") ∧
      (w.cluster.orders "edp" "").card = 1 ∧
      (w.follow r).answers r = [some (.error (.notFound "CDPipeline" "edp" "mobile"))] := by
    decide +kernel
  refine ⟨hquiet, ⟨p, h⟩, hfree, hround, hcard, fun hok => ?_⟩
  obtain ⟨action, h⟩ := hok _ (hfails ▸ List.mem_cons_self)
  cases h

end World

end Conveyor
