import Conveyor.Proofs.Delivery
import Conveyor.Proofs.Predecessors

/-!
The steady state of several stages. A stage that was reconciled with success is content with what is
there (`Cluster.Furnished`), and it stays so while other stages are reconciled, as long as these do
not publish other codebases in its streams or in its inputs. The names alone do not see to that:
they are put together with dashes, and dashes may stand in them. Where they do see to it
(`Cluster.AtPeace`), the stages come to rest together.
-/

namespace Conveyor

open Session Cluster

variable {config : Config} {s t : Stage} {p q : Plan} {c c' : Cluster}
  {X : ObjectKey → Set String} {keys : List ObjectKey} {k l m : ObjectKey} {x y : String}

/-! ### What another stage's work leaves alone -/

namespace Table

variable {α ι : Type} {key : ι → ObjectKey} {g : ι → Option α → Option α} {is : List ι}

/-- Where an alteration puts something, nothing gets lost. -/
theorem isSome_alter {g : Option α → Option α} (hg : ∀ o, (g o).isSome = true) {t : Table α}
    (h : (t k).isSome = true) : (alter l g t k).isSome = true := by
  by_cases hk : k = l
  · rw [hk, alter_self]
    exact hg _
  · rwa [alter_of_ne hk]

theorem isSome_alterAll (hg : ∀ i ∈ is, ∀ o, (g i o).isSome = true) {t : Table α}
    (h : (t k).isSome = true) : (alterAll key g is t k).isSome = true := by
  induction is generalizing t with
  | nil => exact h
  | cons i is ih =>
      obtain ⟨hi, his⟩ := List.forall_mem_cons.1 hg
      rw [alterAll_cons]
      exact ih his (isSome_alter hi h)

end Table

/-- A place for one stage takes none from another. -/
theorem Places.hasTarget_supply_of {x : Places} (h : x.hasTarget config t = true) :
    (x.supply config s).hasTarget config t = true := by
  unfold supply hasTarget at *
  repeat' split
  all_goals simp_all [Dict.contains, Dict.get?_insert]
  all_goals split <;> simp_all

namespace Cluster

theorem furnished_codebases_iff (hp : c.pipelineOf t = .ok p.pipeline) :
    (∃ xs, c.codebases t p.pipeline = .ok xs ∧ ∀ x ∈ xs, x ∈ p.codebases) ↔
      c.Supplies t p.pipeline ∧ ∀ x, c.Feeds t.namespaceName p.pipeline x → x ∈ p.codebases := by
  rw [supplies_iff]
  constructor
  · rintro ⟨xs, hxs, hsub⟩
    obtain ⟨ds, hds, -⟩ := codebases_eq_ok.1 hxs
    exact ⟨⟨hp, ds, hds⟩, fun x hx => hsub x ((mem_codebases_iff hxs).2 hx)⟩
  · rintro ⟨⟨-, ds, hds⟩, hsub⟩
    have hxs : c.codebases t p.pipeline = .ok (ds.map (·.codebase)) :=
      codebases_eq_ok.2 ⟨ds, hds, rfl⟩
    exact ⟨_, hxs, fun x hx => hsub x ((mem_codebases_iff hxs).1 hx)⟩

section

variable (hcontents : c'.contents = c.contents.aim config s q)
include hcontents

/-- What a stage consumes is supplied as before, when its inputs are given no other codebases. -/
theorem codebases_of_aim_of_ne (hs : c.stages.get? s.key = some s) (hkept : Kept config s c c')
    (hp : c.pipelineOf t = .ok p.pipeline)
    (hinputs : ∀ input ∈ p.pipeline.spec.inputStreams, ∀ x ∈ q.codebases,
      q.streamKey s x = ⟨t.namespaceName, input⟩ →
        c.codebaseAt ⟨t.namespaceName, input⟩ = some x)
    (h : ∃ xs, c.codebases t p.pipeline = .ok xs ∧ ∀ x ∈ xs, x ∈ p.codebases) :
    ∃ xs, c'.codebases t p.pipeline = .ok xs ∧ ∀ x ∈ xs, x ∈ p.codebases := by
  have hstreams : c'.contents.imageStreams = _ := congrArg (·.imageStreams) hcontents
  obtain ⟨hsupplies, hfeeds⟩ := (furnished_codebases_iff hp).1 h
  have hp' : c'.pipelineOf t = .ok p.pipeline := by
    rw [← hp, pipelineOf, pipelineOf, hkept.pipelines]
  -- The inputs are about what they were about.
  have hinput (input : String) (hinput : input ∈ p.pipeline.spec.inputStreams) :
      c'.codebaseAt ⟨t.namespaceName, input⟩ = c.codebaseAt ⟨t.namespaceName, input⟩ := by
    by_cases hk : ∃ x ∈ q.codebases, q.streamKey s x = ⟨t.namespaceName, input⟩
    · obtain ⟨x, hx, hkey⟩ := hk
      obtain ⟨v, hv, hcodebase, -⟩ := stream_of_aim hstreams hx
      rw [hinputs input hinput x hx hkey, ← hkey]
      exact codebaseAt_eq_some.2 ⟨v, hv, hcodebase⟩
    · obtain ⟨z, hz⟩ := hsupplies.sources input hinput
      obtain ⟨w, hw, rfl⟩ := codebaseAt_eq_some.1 hz
      obtain ⟨v, hv, hspec⟩ := stream_of_aim_of_ne hstreams (fun x hx he => hk ⟨x, hx, he⟩) hw
      rw [hz]
      exact codebaseAt_eq_some.2 ⟨v, hv, by rw [hspec]⟩
  have hthere {m : ObjectKey} {y : String} (hy : c.codebaseAt m = some y) :
      ∃ z, c'.codebaseAt m = some z := by
    obtain ⟨w, hw, -⟩ := codebaseAt_eq_some.1 hy
    obtain ⟨v, hv⟩ := exists_stream_of_aim hstreams hw
    exact ⟨_, codebaseAt_eq_some.2 ⟨v, hv, rfl⟩⟩
  refine (furnished_codebases_iff hp').2 ⟨⟨found_eq_ok.1 hp', hsupplies.inputs, ?_, ?_⟩, ?_⟩
  · intro input hmem
    rw [hinput input hmem]
    exact hsupplies.sources input hmem
  · intro hfirst
    obtain ⟨b, hb, hverified⟩ := hsupplies.verified hfirst
    obtain ⟨b', hb', hidentity⟩ := (hkept.sameStages hs).exists_previousOf hb
    refine ⟨b', hb', fun input hmem x hx => ?_⟩
    rw [hinput input hmem] at hx
    obtain ⟨y, hy⟩ := hverified input hmem x hx
    rw [Stage.spec_of_identity hidentity]
    exact hthere hy
  · rintro x ⟨input, hmem, hx⟩
    rw [hinput input hmem] at hx
    exact hfeeds x ⟨input, hmem, hx⟩

/-- **A stage that has all stays so beside another one**, as long as that one does not publish other
codebases in its streams and inputs. -/
theorem Furnished.after_other (h : c.Furnished config t p) (hs : c.stages.get? s.key = some s)
    (hq : c.registryUrl s.namespaceName = .ok q.registry) (hkept : Kept config s c c')
    (hne : t.key ≠ s.key)
    (hshared : ∀ x ∈ p.codebases, ∀ y ∈ q.codebases, q.streamKey s y = p.streamKey t x → y = x)
    (hinputs : ∀ input ∈ p.pipeline.spec.inputStreams, ∀ x ∈ q.codebases,
      q.streamKey s x = ⟨t.namespaceName, input⟩ →
        c.codebaseAt ⟨t.namespaceName, input⟩ = some x) :
    c'.Furnished config t p where
  stored := (hkept.others _ hne).trans h.stored
  provisioned := h.provisioned
  pipeline := by
    rw [← h.pipeline, pipelineOf, pipelineOf, hkept.pipelines]
  target := by
    have hplaces : c'.places = c.places.supply config s := congrArg (·.places) hcontents
    rw [hplaces]
    exact Places.hasTarget_supply_of h.target
  role := by
    have hrole := h.role
    rw [← Objects.isSome_seen (f := Resource.unversioned)] at hrole ⊢
    refine (congrArg (fun d : Contents => (d.roles _).isSome) hcontents).trans ?_
    exact Table.isSome_alter (Access.isSome_supply _ _) hrole
  bindings b hb := by
    have hbinding := h.bindings b hb
    rw [← Objects.isSome_seen (f := Resource.unversioned)] at hbinding ⊢
    refine (congrArg (fun d : Contents => (d.roleBindings _).isSome) hcontents).trans ?_
    exact Table.isSome_alterAll (fun _ _ o => Access.isSome_supply _ _ o) hbinding
  codebases := codebases_of_aim_of_ne hcontents hs hkept h.pipeline hinputs h.codebases
  registry := (hkept.registryUrl _).trans h.registry
  streams x hx := by
    have hstreams : c'.contents.imageStreams = _ := congrArg (·.imageStreams) hcontents
    obtain ⟨v, hv, hcodebase, himage⟩ := h.streams x hx
    by_cases hk : ∃ y ∈ q.codebases, q.streamKey s y = p.streamKey t x
    · obtain ⟨y, hy, hkey⟩ := hk
      obtain rfl := hshared x hx y hy hkey
      obtain ⟨w, hw, hcodebase', himage'⟩ := stream_of_aim hstreams hy
      -- The streams are in one namespace, so both stages name the same registry.
      have hhome : s.namespaceName = t.namespaceName := congrArg ObjectKey.namespaceName hkey
      rw [hhome, h.registry] at hq
      have hregistry : p.registry = q.registry := Except.ok.inj hq
      exact ⟨w, hkey ▸ hw, hcodebase', by rw [himage', hregistry, hhome]⟩
    · obtain ⟨w, hw, hspec⟩ := stream_of_aim_of_ne hstreams (fun y hy he => hk ⟨y, hy, he⟩) hv
      exact ⟨w, hw, hspec ▸ hcodebase, hspec ▸ himage⟩
  job := by
    obtain ⟨j, hj, hspec⟩ := h.job
    have hseen : c'.contents.releaseJobs t.key = c.contents.releaseJobs t.key :=
      (congrArg (·.releaseJobs t.key) hcontents).trans (Table.alter_of_ne hne ..)
    obtain ⟨j', hj', hsame⟩ := Option.map_eq_some_iff.1 (hseen.trans (Objects.seen_of_stored hj))
    have hspec' : (Resource.unversioned j').spec = (Resource.unversioned j).spec :=
      congrArg (·.spec) hsame
    exact ⟨j', hj', hspec'.trans hspec⟩

end

/-! ### Stages that are at peace -/

/-- The stage at `k` has an input at `m`. -/
def Consumes (k m : ObjectKey) (c : Cluster) : Prop :=
  ∃ s p, c.stages.get? k = some s ∧ c.pipelineOf s = .ok p ∧ m.namespaceName = s.namespaceName ∧
    m.name ∈ p.spec.inputStreams

/-- The stream at `m` is the one in which the stage at `k` publishes the codebase. -/
def PublishesIn (k m : ObjectKey) (x : String) (c : Cluster) : Prop :=
  ∃ s p, c.stages.get? k = some s ∧ c.pipelineOf s = .ok p ∧
    m = ⟨s.namespaceName, Promotion.verifiedName p.name s.spec.name x⟩

/-- The live stages at the keys, each of which may come to publish codebases of `X`, leave each
other's streams and inputs to their codebases. -/
structure AtPeace (X : ObjectKey → Set String) (keys : List ObjectKey) (c : Cluster) : Prop where
  stages : ∀ k ∈ keys, ∃ s, c.stages.get? k = some s ∧ s.isBeingDeleted = false ∧
    ∀ p, c.pipelineOf s = .ok p → p.metadata.name.isSome = true
  feeds : ∀ k ∈ keys, ∀ m, c.Consumes k m → ∀ x, c.codebaseAt m = some x → x ∈ X k
  /-- A stream in which two stages publish is about one codebase. -/
  apart : ∀ k ∈ keys, ∀ l ∈ keys, k ≠ l → ∀ m, ∀ x ∈ X k, ∀ y ∈ X l,
    c.PublishesIn k m x → c.PublishesIn l m y → x = y
  /-- An input in which another stage publishes is about the codebase of that one, if it is there
  already. -/
  handed : ∀ k ∈ keys, ∀ l ∈ keys, k ≠ l → ∀ m, c.Consumes k m → ∀ y ∈ X l,
    c.PublishesIn l m y → y ∈ X k ∧ ∀ x, c.codebaseAt m = some x → x = y

theorem SameStages.exists_stage (h : c.SameStages c') (hs : c.stages.get? k = some s) :
    ∃ s', c'.stages.get? k = some s' ∧ s'.identity = s.identity := by
  have hsame := h k
  rw [hs] at hsame
  exact Option.map_eq_some_iff.1 hsame

theorem pipelineOf_of_identity (h : t.identity = s.identity)
    (hpipelines : c'.pipelines = c.pipelines) : c'.pipelineOf t = c.pipelineOf s := by
  rw [pipelineOf, pipelineOf, hpipelines, Stage.home_of_identity h,
    Stage.pipelineName_of_identity h]

theorem Consumes.of_sameStages (hsame : c.SameStages c') (hpipelines : c'.pipelines = c.pipelines)
    (h : c.Consumes k m) : c'.Consumes k m := by
  obtain ⟨s, p, hs, hp, hhome, hm⟩ := h
  obtain ⟨s', hs', hidentity⟩ := hsame.exists_stage hs
  exact ⟨s', p, hs', (pipelineOf_of_identity hidentity hpipelines).trans hp,
    hhome.trans (Stage.home_of_identity hidentity).symm, hm⟩

theorem PublishesIn.of_sameStages (hsame : c.SameStages c')
    (hpipelines : c'.pipelines = c.pipelines) (h : c.PublishesIn k m x) :
    c'.PublishesIn k m x := by
  obtain ⟨s, p, hs, hp, rfl⟩ := h
  obtain ⟨s', hs', hidentity⟩ := hsame.exists_stage hs
  refine ⟨s', p, hs', (pipelineOf_of_identity hidentity hpipelines).trans hp, ?_⟩
  rw [Stage.spec_of_identity hidentity, Stage.home_of_identity hidentity]

/-- A stage publishes no two codebases in one stream. -/
theorem PublishesIn.eq (h : c.PublishesIn k m x) (h' : c.PublishesIn k m y) : x = y := by
  obtain ⟨s, p, hs, hp, rfl⟩ := h
  obtain ⟨t, q, ht, hq, hkey⟩ := h'
  obtain rfl := Option.some.inj (hs.symm.trans ht)
  obtain rfl := Except.ok.inj (hp.symm.trans hq)
  exact Promotion.verifiedName_injective (congrArg ObjectKey.name hkey)

namespace AtPeace

theorem mem_of_codebases (h : c.AtPeace X keys) (hk : s.key ∈ keys)
    (hs : c.stages.get? s.key = some s) {p : Pipeline} (hp : c.pipelineOf s = .ok p)
    {xs : List String} (hxs : c.codebases s p = .ok xs) (hx : x ∈ xs) : x ∈ X s.key := by
  obtain ⟨input, hinput, hx⟩ := (mem_codebases_iff hxs).1 hx
  exact h.feeds s.key hk _ ⟨s, p, hs, hp, rfl, hinput⟩ x hx

/-- A stream is as it was, or the stage has published a codebase in it. -/
theorem changes (h : c.AtPeace X keys) (hk : s.key ∈ keys) (hs : c.stages.get? s.key = some s)
    (hstreams : c.PromotesOnly s c') (m : ObjectKey) :
    c'.codebaseAt m = c.codebaseAt m ∨
      ∃ x ∈ X s.key, c.PublishesIn s.key m x ∧ c'.codebaseAt m = some x := by
  rcases hstreams with hsame | ⟨plan, hplan, hpromotes⟩
  · exact .inl (codebaseAt_congr hsame m)
  · rcases hpromotes m with hsame | ⟨x, hx, rfl, hnew⟩
    · exact .inl (by rw [codebaseAt, codebaseAt, hsame])
    · exact .inr ⟨x, h.mem_of_codebases hk hs hplan.pipeline hplan.codebases hx,
        ⟨s, _, hs, hplan.pipeline, rfl⟩, hnew⟩

/-- The peace is kept by a reconcile of any of the stages. -/
theorem after (h : c.AtPeace X keys) (hk : s.key ∈ keys) (hs : c.stages.get? s.key = some s)
    (hkept : Kept config s c c') (hstreams : c.PromotesOnly s c') : c'.AtPeace X keys := by
  have hsame := hkept.sameStages hs
  have hconsumes {k m : ObjectKey} (hm : c'.Consumes k m) : c.Consumes k m :=
    hm.of_sameStages hsame.symm hkept.pipelines.symm
  have hpublishes {k m : ObjectKey} {x : String} (hm : c'.PublishesIn k m x) :
      c.PublishesIn k m x :=
    hm.of_sameStages hsame.symm hkept.pipelines.symm
  refine ⟨fun k hk' => ?_, fun k hk' m hm x hx => ?_, fun k hk' l hl hne m x hx y hy hkx hly => ?_,
    fun k hk' l hl hne m hm y hy hly => ?_⟩
  · obtain ⟨b, hb, hlive, hnamed⟩ := h.stages k hk'
    obtain ⟨b', hb', hidentity⟩ := hsame.exists_stage hb
    refine ⟨b', hb', (Stage.isBeingDeleted_of_identity hidentity).trans hlive, fun p hp => ?_⟩
    exact hnamed p ((pipelineOf_of_identity hidentity hkept.pipelines).symm.trans hp)
  · rcases h.changes hk hs hstreams m with hcodebase | ⟨y, hy, hsy, hnew⟩
    · exact h.feeds k hk' m (hconsumes hm) x (hcodebase ▸ hx)
    · obtain rfl := Option.some.inj (hx.symm.trans hnew)
      by_cases hkey : k = s.key
      · exact hkey ▸ hy
      · exact (h.handed k hk' s.key hk hkey m (hconsumes hm) x hy hsy).1
  · exact h.apart k hk' l hl hne m x hx y hy (hpublishes hkx) (hpublishes hly)
  · obtain ⟨hmem, hbefore⟩ := h.handed k hk' l hl hne m (hconsumes hm) y hy (hpublishes hly)
    refine ⟨hmem, fun x hx => ?_⟩
    rcases h.changes hk hs hstreams m with hcodebase | ⟨z, hz, hsz, hnew⟩
    · exact hbefore x (hcodebase ▸ hx)
    · obtain rfl := Option.some.inj (hx.symm.trans hnew)
      by_cases hkey : s.key = l
      · subst hkey
        exact hsz.eq (hpublishes hly)
      · exact h.apart s.key hk l hl hkey m x hz y hy hsz (hpublishes hly)

end AtPeace

/-- The stage at `k` has all that it asks for, and has published codebases of `X`. -/
def Rests (config : Config) (X : ObjectKey → Set String) (k : ObjectKey) (c : Cluster) : Prop :=
  ∃ t p, t.key = k ∧ t.isBeingDeleted = false ∧ c.Furnished config t p ∧ ∀ x ∈ p.codebases, x ∈ X k

/-- A stage at rest is not disturbed by the success of another one. -/
theorem Rests.after_other (h : c.Rests config X k) (hpeace : c.AtPeace X keys) (hk : k ∈ keys)
    (hl : s.key ∈ keys) (hne : k ≠ s.key) (hs : c.stages.get? s.key = some s)
    (hq : c.Plans config s q) (hkept : Kept config s c c')
    (hcontents : c'.contents = c.contents.aim config s q) : c'.Rests config X k := by
  obtain ⟨t, p, rfl, hlive, hfurnished, hsub⟩ := h
  have hmem {y : String} (hy : y ∈ q.codebases) : y ∈ X s.key :=
    hpeace.mem_of_codebases hl hs hq.pipeline hq.codebases hy
  have hpublishes (y : String) : c.PublishesIn s.key (q.streamKey s y) y :=
    ⟨s, _, hs, hq.pipeline, rfl⟩
  refine ⟨t, p, rfl, hlive, hfurnished.after_other hcontents hs hq.registry hkept hne ?_ ?_, hsub⟩
  · intro x hx y hy hkey
    have hown : c.PublishesIn t.key (q.streamKey s y) x :=
      ⟨t, _, hfurnished.stored, hfurnished.pipeline, hkey⟩
    exact (hpeace.apart t.key hk s.key hl hne _ x (hsub x hx) y (hmem hy) hown (hpublishes y)).symm
  · intro input hinput y hy hkey
    obtain ⟨hsupplies, -⟩ := (furnished_codebases_iff hfurnished.pipeline).1 hfurnished.codebases
    obtain ⟨z, hz⟩ := hsupplies.sources input hinput
    have hconsumes : c.Consumes t.key ⟨t.namespaceName, input⟩ :=
      ⟨t, _, hfurnished.stored, hfurnished.pipeline, rfl, hinput⟩
    obtain ⟨-, hsame⟩ := hpeace.handed t.key hk s.key hl hne _ hconsumes y (hmem hy)
      (hkey ▸ hpublishes y)
    rw [hz, hsame z hz]

/-- All stages are at peace, and those of `done` are at rest. -/
structure AtRest (config : Config) (X : ObjectKey → Set String) (keys done : List ObjectKey)
    (c : Cluster) : Prop where
  coherent : c.Coherent
  calm : c.failures = []
  peace : c.AtPeace X keys
  among : ∀ k ∈ done, k ∈ keys
  rests : ∀ k ∈ done, c.Rests config X k

theorem AtRest.fewer {done done' : List ObjectKey} (h : c.AtRest config X keys done)
    (hsub : ∀ k ∈ done', k ∈ done) : c.AtRest config X keys done' :=
  { h with
    among := fun k hk => h.among k (hsub k hk)
    rests := fun k hk => h.rests k (hsub k hk) }

end Cluster

/-! ### Reconciles -/

namespace Stage

variable {done : List ObjectKey} {now : Timestamp}

/-- A reconcile that goes well brings its stage to rest, and leaves the others there. -/
theorem ensures_reconcile_rest (h : c.AtRest config X keys done) (hk : s.key ∈ keys)
    (hs : c.stages.get? s.key = some s) :
    (s.reconcile config now).Ensures NoFailure c fun r c' => ∀ a, r = .ok a →
      c'.AtRest config X keys (s.key :: done) := by
  obtain ⟨b, hb, hlive, hnamed⟩ := h.peace.stages s.key hk
  obtain rfl := Option.some.inj (hs.symm.trans hb)
  have hnames := h.coherent.namesPipeline hnamed
  have hreconcile : (s.reconcile config now).Ensures NoFailure c (Effect _ config s _ _ _ c) :=
    ensures_reconcile config now h.coherent hs hlive hnames
  have hcalm : (s.reconcile config now).Ensures NoFailure c fun _ c' => c'.failures = [] :=
    (asks_true _).ensures (fun r d _ hd => (failures_serve r d).trans hd) h.calm
  refine ((hreconcile.and (ensures_reconcile_streams config now h.coherent hs hlive hnames)).and
    (hcalm.and (h.coherent.ensures _))).mono ?_
  rintro r c' ⟨⟨heffect, hstreams⟩, hcalm', hc'⟩ a rfl
  obtain ⟨q, t, hq, hcontents, hlike, hfurnished⟩ := furnished_of_effect hs heffect
  have hself : c'.Rests config X s.key :=
    ⟨t, q, hlike.key, hlike.isBeingDeleted.trans hlive, hfurnished, fun x hx =>
      h.peace.mem_of_codebases hk hs hq.pipeline hq.codebases hx⟩
  refine ⟨hc', hcalm', h.peace.after hk hs heffect.kept hstreams,
    List.forall_mem_cons.2 ⟨hk, h.among⟩, List.forall_mem_cons.2 ⟨hself, fun l hl => ?_⟩⟩
  by_cases hkey : l = s.key
  · exact hkey ▸ hself
  · exact (h.rests l hl).after_other h.peace (h.among l hl) hk hkey hs hq heffect.kept hcontents

/-- A stage at rest writes to no stream. -/
theorem ensures_reconcile_again (hcalm : c.failures = []) (h : c.Rests config X s.key)
    (hs : c.stages.get? s.key = some s) (now : Timestamp) :
    (s.reconcile config now).Ensures NoFailure c fun r c' =>
      r = .ok .awaitChange ∧ c'.imageStreams = c.imageStreams := by
  obtain ⟨t, p, hkey, hlive, hfurnished, -⟩ := h
  obtain rfl : t = s := Option.some.inj (hfurnished.stored.symm.trans (hkey ▸ hs))
  obtain ⟨status, -, htakes⟩ := takes_reconcile hcalm hfurnished hlive now
  refine (ensures_run _ hcalm).mono fun r c' hrun => ?_
  obtain ⟨rfl, rfl⟩ := Prod.mk.inj (htakes.run.symm.trans hrun)
  exact ⟨rfl, rfl⟩

end Stage

/-! ### Runs -/

namespace World

variable {w : World} {done : List ObjectKey}

/-- After reconciles that all went well, their stages are at rest. -/
theorem follow_rests (hquiet : w.observed.FailsWith NoFailure)
    (h : w.cluster.AtRest w.config X keys done) {r : Schedule} (hr : ∀ k ∈ r.map (·.2), k ∈ keys)
    (hok : ∀ a ∈ w.answers r, ∃ action, a = some (.ok action)) :
    (w.follow r).observed.FailsWith NoFailure ∧ (w.follow r).config = w.config ∧
      (w.follow r).cluster.AtRest w.config X keys (r.map (·.2) ++ done) := by
  induction r generalizing w done with
  | nil => exact ⟨hquiet, rfl, h⟩
  | cons e r ih =>
      obtain ⟨now, key⟩ := e
      obtain ⟨hkey, hkeys⟩ := List.forall_mem_cons.1 hr
      obtain ⟨⟨action, ha⟩, hoks⟩ := List.forall_mem_cons.1 hok
      obtain ⟨s, hs, -⟩ := h.peace.stages key hkey
      obtain rfl : s.key = key := h.coherent.stages key s hs
      have hreconcile : (s.reconcile w.config now).Ensures NoFailure w.cluster _ :=
        Stage.ensures_reconcile_rest h hkey hs
      obtain ⟨hquiet', x, hx, hrest⟩ := answer_of_ensures hquiet hs hreconcile
      obtain rfl := Option.some.inj (hx.symm.trans ha)
      obtain ⟨hquiet'', hconfig, hrests⟩ := ih hquiet' (hrest action rfl) hkeys hoks
      refine ⟨hquiet'', hconfig, hrests.fewer fun k hk => ?_⟩
      rcases List.mem_cons.1 hk with rfl | hk
      · exact List.mem_append_right _ List.mem_cons_self
      · exact List.mem_append.2 ((List.mem_append.1 hk).imp_right (List.mem_cons_of_mem _))

/-- Stages at rest stay there, and no stream changes. -/
theorem follow_still (hquiet : w.observed.FailsWith NoFailure)
    (h : w.cluster.AtRest w.config X keys keys) {r : Schedule} (hr : ∀ k ∈ r.map (·.2), k ∈ keys) :
    (w.follow r).cluster.imageStreams = w.cluster.imageStreams ∧
      ∀ a ∈ w.answers r, a = some (.ok .awaitChange) := by
  let I (ks : List ObjectKey) (c : Cluster) : Prop := (∀ k ∈ ks, k ∈ keys) ∧
    c.AtRest w.config X keys keys ∧ c.imageStreams = w.cluster.imageStreams
  have turn (now : Timestamp) (k : ObjectKey) (ks : List ObjectKey) (c : Cluster)
      (hI : I (k :: ks) c) : ∃ s, c.stages.get? k = some s ∧
        (s.reconcile w.config now).Ensures NoFailure c fun r c' => r = .ok .awaitChange ∧ I ks c' := by
    obtain ⟨hmem, hrest, hsame⟩ := hI
    obtain ⟨hk, hks⟩ := List.forall_mem_cons.1 hmem
    obtain ⟨s, hs, -⟩ := hrest.peace.stages k hk
    obtain rfl : s.key = k := hrest.coherent.stages k s hs
    have hstill := Stage.ensures_reconcile_again hrest.calm (hrest.rests _ hk) hs now
    refine ⟨s, hs, (hstill.and (Stage.ensures_reconcile_rest hrest hk hs)).mono ?_⟩
    rintro r c' ⟨⟨rfl, hstreams⟩, hrest'⟩
    exact ⟨rfl, hks, (hrest' _ rfl).fewer fun l hl => List.mem_cons_of_mem _ hl,
      hstreams.trans hsame⟩
  obtain ⟨⟨-, -, hsame⟩, -, -, hanswers⟩ := follow_keeps hquiet turn ⟨hr, h, rfl⟩
  refine ⟨hsame, fun a ha => ?_⟩
  obtain ⟨x, rfl, rfl⟩ := hanswers a ha
  rfl

/-- **Stages have a steady state in common.** Live stages that leave each other's streams and inputs
to their codebases are reconciled one after the other, and all goes well. Then, however often and in
whichever order they are reconciled again, all goes well, and no stream changes at all. -/
theorem stages_keep_still {w : World} (hw : w.cluster.Reachable)
    (hquiet : w.observed.FailsWith NoFailure) {first : Schedule}
    (h : w.cluster.AtPeace X (first.map (·.2)))
    (hok : ∀ a ∈ w.answers first, ∃ action, a = some (.ok action)) {again : Schedule}
    (hagain : ∀ k ∈ again.map (·.2), k ∈ first.map (·.2)) :
    ((w.follow first).follow again).cluster.imageStreams =
        (w.follow first).cluster.imageStreams ∧
      ∀ a ∈ (w.follow first).answers again, a = some (.ok .awaitChange) := by
  have start : w.cluster.AtRest w.config X (first.map (·.2)) [] :=
    { coherent := hw.coherent
      calm := List.eq_nil_iff_forall_not_mem.2 hquiet.stored
      peace := h
      among := fun _ hk => absurd hk List.not_mem_nil
      rests := fun _ hk => absurd hk List.not_mem_nil }
  obtain ⟨hquiet', hconfig, hrests⟩ := follow_rests hquiet start (fun _ hk => hk) hok
  rw [List.append_nil] at hrests
  exact follow_still hquiet' (hconfig.symm ▸ hrests) hagain

open Sample in
/-- The stage of one pipeline goes on from what the stage of another one publishes. -/
theorem stages_keep_still_in_chain :
    let w := ({} : World).run arrangingChained
    let first : Schedule := [(.epoch, key "dev"), (.epoch, key "site")]
    let again : Schedule := [(.epoch, key "dev"), (.epoch, key "site"), (.epoch, key "dev")]
    w.answers first = [some (.ok .awaitChange), some (.ok .awaitChange)] ∧
      ((w.follow first).follow again).cluster.imageStreams =
        (w.follow first).cluster.imageStreams ∧
      ∀ a ∈ (w.follow first).answers again, a = some (.ok .awaitChange) := by
  intro w first again
  obtain ⟨hquiet, hstages, hsources, hfirst⟩ : w.observed.FailsWith NoFailure ∧
      (∀ k ∈ first.map (·.2), ∃ s ∈ w.cluster.stages.get? k, s.isBeingDeleted = false ∧
        ∀ p ∈ (w.cluster.pipelineOf s).toOption, p.metadata.name.isSome = true) ∧
      (∀ e ∈ w.cluster.imageStreams.toList, e.2.spec.codebase = "app") ∧
      w.answers first = [some (.ok .awaitChange), some (.ok .awaitChange)] := by
    decide +kernel
  have hcodebase {m : ObjectKey} {x : String} (hx : w.cluster.codebaseAt m = some x) :
      x = "app" := by
    obtain ⟨v, hv, rfl⟩ := codebaseAt_eq_some.1 hx
    exact hsources (m, v) (Dict.mem_toList.2 hv)
  have hpeace : w.cluster.AtPeace (fun _ => {"app"}) (first.map (·.2)) := by
    refine ⟨fun k hk => ?_, fun k _ m _ x hx => hcodebase hx, ?_, ?_⟩
    · obtain ⟨s, hs, hlive, hnamed⟩ := hstages k hk
      exact ⟨s, hs, hlive, fun p hp => hnamed p (hp ▸ rfl)⟩
    · rintro k - l - - m _ rfl _ rfl - -
      rfl
    · rintro k - l - - m - _ rfl -
      exact ⟨rfl, fun x hx => hcodebase hx⟩
  have hok : ∀ a ∈ w.answers first, ∃ action, a = some (.ok action) := by
    rw [hfirst]
    simp
  exact ⟨hfirst, stages_keep_still (reachable_run _) hquiet hpeace hok (by simp [first, again])⟩

/-- Without failures, two live stages are reconciled with success, and the first of them then changes
the stream when it is reconciled again. -/
def Disturbs (a b stream : ObjectKey) (w : World) : Prop :=
  let first : Schedule := [(.epoch, a), (.epoch, b)]
  let w' := w.follow first
  w.observed.FailsWith NoFailure ∧
    (∀ k ∈ [a, b], ∃ s ∈ w.cluster.stages.get? k, s.isBeingDeleted = false) ∧
    w.answers first = [some (.ok .awaitChange), some (.ok .awaitChange)] ∧
    (w'.apply (.reconcile .epoch a)).cluster.codebaseAt stream ≠ w'.cluster.codebaseAt stream

instance (a b stream : ObjectKey) (w : World) : Decidable (w.Disturbs a b stream) := by
  unfold Disturbs
  infer_instance

open Sample in
/-- A stage changes a stream again where the other one publishes another codebase in it, where the
other one publishes in an input, and where it belongs to a pipeline without a name itself. -/
theorem stages_disturb_each_other :
    (({} : World).run arrangingDashed).Disturbs (key "dev") (key "dev-qa")
        (key "mobile-dev-qa-app-verified") ∧
      (({} : World).run arrangingHanded).Disturbs (key "site") (key "dev")
        (key "web-site-app-verified") ∧
      (({} : World).run arrangingNamesakes).Disturbs (key "dev") (key "qa")
        (key "mobile-dev-app-verified") := by
  decide +kernel

end World

end Conveyor
