import Conveyor.Proofs.Footprint
import Conveyor.Proofs.Reconciling
import Conveyor.Proofs.Supplies

/-!
What a reconcile of a live stage does to the image streams, however it ends. It writes to none but
those that the stage publishes in, and each of these is then about the codebase that it is named
for. So a stream never goes, and an input can only come to be about another codebase of the stage.
-/

namespace Conveyor

open Session Cluster
open Promotion (Consumed)

variable {config : Config} {s : Stage} {F : Error → Prop} {c c' c'' : Cluster}

namespace Cluster

/-- Every stream is what it was, or one in which the plan has a codebase published. -/
def Promotes (s : Stage) (p : Plan) (c c' : Cluster) : Prop :=
  ∀ k, c'.imageStreams.get? k = c.imageStreams.get? k ∨
    ∃ x ∈ p.codebases, k = p.streamKey s x ∧ c'.codebaseAt k = some x

/-- No streams have changed but those that the stage publishes in. -/
def PromotesOnly (s : Stage) (c c' : Cluster) : Prop :=
  c'.imageStreams = c.imageStreams ∨ ∃ p, c.Publishes s p ∧ c.Promotes s p c'

theorem codebaseAt_congr (h : c'.imageStreams = c.imageStreams) (k : ObjectKey) :
    c'.codebaseAt k = c.codebaseAt k := by
  rw [codebaseAt, codebaseAt, h]

theorem Promotes.refl (s : Stage) (p : Plan) (c : Cluster) : c.Promotes s p c := fun _ => .inl rfl

theorem Promotes.trans {p : Plan} (h : c.Promotes s p c') (k : c'.Promotes s p c'') :
    c.Promotes s p c'' := by
  intro l
  rcases k l with hsame | hnew
  · rcases h l with hsame' | ⟨x, hx, hkey, hcodebase⟩
    · exact .inl (hsame.trans hsame')
    · refine .inr ⟨x, hx, hkey, ?_⟩
      rw [← hcodebase, codebaseAt, codebaseAt, hsame]
  · exact .inr hnew

/-- A part that leaves the streams alone comes first. -/
theorem PromotesOnly.after (h : c'.PromotesOnly s c'') (hway : UnderWay config s c c')
    (hsame : c'.imageStreams = c.imageStreams) : c.PromotesOnly s c'' := by
  rcases h with h | ⟨p, hp, h⟩
  · exact .inl (h.trans hsame)
  · refine .inr ⟨p, (hway.publishes p).1 hp, fun k => ?_⟩
    rw [← hsame]
    exact h k

/-- A part that leaves the streams alone comes last. -/
theorem PromotesOnly.before (h : c.PromotesOnly s c') (hsame : c''.imageStreams = c'.imageStreams) :
    c.PromotesOnly s c'' := by
  rcases h with h | ⟨p, hp, h⟩
  · exact .inl (hsame.trans h)
  · refine .inr ⟨p, hp, fun k => ?_⟩
    rw [hsame, codebaseAt_congr hsame]
    exact h k

end Cluster

/-! ### The publication -/

/-- The second stream is the first one about another codebase and another image. Tags stay, and so
do labels, annotations and all other metadata, the version aside. -/
structure ImageStream.Repoints (u t : ImageStream) : Prop where
  tags : t.spec.tags = u.spec.tags
  metadata : t.metadata = { u.metadata with resourceVersion := t.metadata.resourceVersion }

namespace Promotion

/-- A stream is written at its name. It is about the codebase then, and if it was there before it
has changed in codebase and image only. -/
theorem ensures_putVerified_repoints {namespaceName name : String} {spec : ImageStreamSpec}
    (hc : c.Coherent) :
    (putVerified namespaceName name spec).Ensures F c fun _ c' =>
      ∀ k, c'.imageStreams.get? k = c.imageStreams.get? k ∨
        k = ⟨namespaceName, name⟩ ∧ ∃ t, c'.imageStreams.get? k = some t ∧
          t.spec.codebase = spec.codebase ∧ ∀ u ∈ c.imageStreams.get? k, u.Repoints t := by
  let key : ObjectKey := ⟨namespaceName, name⟩
  -- Either write puts a stream about the codebase at the key.
  have hwritten (t : ImageStream) (ht : t.spec.codebase = spec.codebase)
      (hu : ∀ u ∈ c.imageStreams.get? key, u.Repoints t) (k : ObjectKey) :
      (c.wrote imageStreamShelf key t).imageStreams.get? k = c.imageStreams.get? k ∨
        k = key ∧ ∃ v, (c.wrote imageStreamShelf key t).imageStreams.get? k = some v ∧
          v.spec.codebase = spec.codebase ∧ ∀ u ∈ c.imageStreams.get? k, u.Repoints v := by
    by_cases hk : k = key
    · subst hk
      exact .inr ⟨rfl, t, Dict.get?_insert_self .., ht, hu⟩
    · exact .inl (Dict.get?_insert_of_ne _ _ hk)
  refine (ensures_putVerified_putting hc).mono fun r c' h => ?_
  cases h with
  | unknown | kept | uncorrected | unmade => exact fun k => .inl rfl
  | corrected ht _ =>
      refine hwritten _ rfl fun u hu => ?_
      obtain rfl := Option.some.inj (ht.symm.trans hu)
      exact ⟨rfl, rfl⟩
  | made hnone =>
      refine hwritten _ rfl fun u hu => ?_
      cases hnone.symm.trans hu

theorem ensures_putVerified_streams {namespaceName name : String} {spec : ImageStreamSpec}
    (hc : c.Coherent) :
    (putVerified namespaceName name spec).Ensures F c fun _ c' =>
      ∀ k, c'.imageStreams.get? k = c.imageStreams.get? k ∨
        k = ⟨namespaceName, name⟩ ∧ c'.codebaseAt k = some spec.codebase := by
  refine (ensures_putVerified_repoints hc).mono fun r c' h k => ?_
  refine (h k).imp_right ?_
  rintro ⟨hk, t, ht, hcodebase, -⟩
  exact ⟨hk, codebaseAt_eq_some.2 ⟨t, ht, hcodebase⟩⟩

/-- The rule of the publication. It stops at a look-up, or the streams of a plan are put one after
the other. -/
theorem ensures_promote_of_rounds {I : Plan → Cluster → Prop} (hc : c.Coherent)
    (start : ∀ p, c.Publishes s p → I p c)
    (round : ∀ p, ∀ x ∈ p.codebases, ∀ c', c'.Coherent → I p c' →
      (putVerified s.namespaceName (verifiedName p.pipeline.name s.spec.name x)
        (verifiedSpec p.registry s.namespaceName x)).Ensures F c' fun _ c'' => I p c'') :
    (promote s).Ensures F c fun _ c' => c' = c ∨ ∃ p, c.Publishes s p ∧ I p c' := by
  refine ensures_promote_of_plan (fun e _ => .inl rfl) fun p hp => ?_
  refine Ensures.mono (Q := fun _ c' => I p c') ?_ fun _ c' h => .inr ⟨p, hp, h⟩
  refine ensures_each (I := fun rest c' => c'.Coherent ∧ (∀ x ∈ rest, x ∈ p.codebases) ∧ I p c')
    ?_ (fun c' h => h.2.2) ⟨hc, fun _ hx => hx, start p hp⟩
  rintro x rest c' ⟨hc', hmem, hI⟩
  obtain ⟨hx, hmem⟩ := List.forall_mem_cons.1 hmem
  refine ((round p x hx c' hc' hI).and (hc'.ensures _)).mono ?_
  rintro r c'' ⟨hI', hc''⟩
  cases r with
  | ok u => exact ⟨hc'', hmem, hI'⟩
  | error e => exact hI'

theorem ensures_promote_streams (hc : c.Coherent) :
    (promote s).Ensures F c fun _ c' => c.PromotesOnly s c' := by
  refine (ensures_promote_of_rounds (I := fun p c' => c.Promotes s p c') hc
    (fun p _ => .refl s p c) fun p x hx c' hc' hpromotes => ?_).mono fun r c' h => ?_
  · refine (ensures_putVerified_streams hc').mono fun r c'' hstep => hpromotes.trans fun k => ?_
    exact (hstep k).imp_right fun h => ⟨x, hx, h⟩
  · exact h.imp_left (congrArg Cluster.imageStreams)

end Promotion

/-! ### The whole reconcile -/

/-- What the making of a target asks for, on each platform. -/
theorem Target.asks_placing_of {P : Request → Prop} (look : P (.namespaceExists s.targetNamespace))
    (space : (config.isKubernetes && config.usesSpaces) = true →
      ∀ account, P (.createSpace s.targetNamespace account))
    (kubernetes : config.isKubernetes = true → P (.createNamespace s.targetNamespace))
    (openshift : config.isKubernetes = false →
      ∀ description, P (.createProject s.targetNamespace description)) :
    (placing config s).Asks P := by
  refine asks_ite (fun _ => asks_request_bind look fun found => ?_) fun _ => ?_
  · split <;> trivial
  · refine asks_ite (fun h => asks_tolerate (asks_request (space h _))) fun _ => ?_
    refine asks_ite (fun h => asks_tolerate (asks_request (kubernetes h))) fun h => ?_
    exact asks_tolerate (asks_request (openshift (Bool.eq_false_iff.2 h) _))

theorem Target.asks_placing (config : Config) (s : Stage) :
    (placing config s).Asks (Request.Within [.places]) :=
  asks_placing_of trivial (fun _ _ => List.mem_cons_self) (fun _ => List.mem_cons_self)
    fun _ _ => List.mem_cons_self

theorem ensures_provision_streams (hc : c.Coherent) :
    (provision config s).Ensures F c fun _ c' => c.PromotesOnly s c' := by
  have hplacing : (Target.placing config s).Ensures F c (Effect F config s True _ _ c) :=
    Target.ensures_placing
  rw [Target.provision_eq]
  refine ((hplacing.and ((Target.asks_placing config s).ensures_imageStreams (by decide))).and
    (hc.ensures _)).bind ?_ fun e c₁ h => .inl h.1.2
  rintro u c₁ ⟨⟨hplaced, hsame⟩, hc₁⟩
  have hway := hplaced.underWay trivial
  have hconfigure : (Access.configure config s).Ensures F c₁ (Effect F config s True _ _ c₁) :=
    Access.ensures_configure hc₁
  refine ((hconfigure.and ((Access.asks_configure config s).ensures_imageStreams (by decide))).and
    (hc₁.ensures _)).bind ?_ fun e c₂ h => .inl (h.1.2.trans hsame)
  rintro u' c₂ ⟨⟨hconfigured, hsame'⟩, hc₂⟩
  have hway' := hway.trans (hconfigured.underWay trivial)
  refine (Promotion.ensures_promote_streams hc₂).bind ?_ fun e c₃ h =>
    h.after hway' (hsame'.trans hsame)
  intro u'' c₃ hpromoted
  refine ((ReleaseJob.asks_put s).ensures_imageStreams (by decide)).mono fun _ c₄ hsame'' => ?_
  exact (hpromoted.before hsame'').after hway' (hsame'.trans hsame)

namespace Stage

/-- **A reconcile of a live stage writes to no streams but its own**, however it ends. -/
theorem ensures_reconcile_streams (config : Config) (now : Timestamp) (hc : c.Coherent)
    (hs : c.stages.get? s.key = some s) (hlive : s.isBeingDeleted = false)
    (hnames : c.NamesPipeline s) :
    (s.reconcile config now).Ensures F c fun _ c' => c.PromotesOnly s c' := by
  rw [reconcile, if_neg (by rw [hlive]; decide)]
  have hfinalizer : s.ensureFinalizer.Ensures F c fun r c' =>
      Effect F config s True _ _ c r c' ∧ _ := ensures_ensureFinalizer hs
  refine ((hfinalizer.and ((s.asks_ensureFinalizer.mono fun _ hr => hr.1).ensures_imageStreams
    (by decide))).and (hc.ensures _)).bind ?_ fun e c₁ h => .inl h.1.2
  rintro a c₁ ⟨⟨⟨hfin, t, ht, hlike, howners, hlabels⟩, hsame⟩, hc₁⟩
  have hway := hfin.underWay trivial
  have hnames₁ : c₁.NamesPipeline s := fun p hp => hnames p (hway.pipelineOf ▸ hp)
  have hownership : s.ensureOwnership.Ensures F c₁ (Effect F config s True _ _ c₁) :=
    ensures_ensureOwnership ht hlike howners hlabels hnames₁
  have hprovision : (s.provisionOwned config).Ensures F c₁ fun _ c' => c.PromotesOnly s c' := by
    refine ((hownership.and ((s.asks_ensureOwnership.mono fun _ hr => hr.1).ensures_imageStreams
      (by decide))).and (hc₁.ensures _)).bind ?_ fun e c₂ h => .inl (h.1.2.trans hsame)
    rintro u c₂ ⟨⟨howned, hsame'⟩, hc₂⟩
    exact (ensures_provision_streams hc₂).mono fun _ c₃ h =>
      h.after (hway.trans (howned.underWay trivial)) (hsame'.trans hsame)
  refine ensures_attempt_bind.2 (hprovision.mono fun r c₂ hpromoted => ?_)
  exact ((s.asks_report now r).mono fun _ hr => hr.1).ensures_imageStreams (by decide) |>.mono
    fun _ c₃ hsame' => hpromoted.before hsame'

end Stage

end Conveyor
