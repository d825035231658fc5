import Conveyor.Proofs.Publishing

/-!
What a whole reconcile of a live stage makes of a cluster. It works from a copy of the stage that
was read at the start, and the stored stage changes under it: first it gets the finalizer, then the
owner.
-/

namespace Conveyor

open Session Cluster
open Promotion (Consumed)

variable {config : Config} {s t : Stage} {F : Error → Prop} {c c' : Cluster} {S : Prop}

/-- A stage refers to its pipeline by a name that the pipeline knows as its own. -/
def Cluster.NamesPipeline (s : Stage) (c : Cluster) : Prop :=
  ∀ p, c.pipelineOf s = .ok p → p.name = s.pipelineName

/-- A pipeline that has a name is called by it. -/
theorem Cluster.Coherent.namesPipeline {s : Stage} {c : Cluster} (hc : c.Coherent)
    (h : ∀ p, c.pipelineOf s = .ok p → p.metadata.name.isSome = true) : c.NamesPipeline s := by
  intro p hp
  obtain ⟨name, hname⟩ := Option.isSome_iff_exists.1 (h p hp)
  have hfiled : p.metadata.nameOrEmpty = s.pipelineName := hc.pipelines _ p (found_eq_ok.1 hp)
  rw [Metadata.nameOrEmpty, hname] at hfiled
  rw [Pipeline.name, Metadata.nameOrStem, hname]
  exact hfiled

namespace Stage

/-! ### Owner -/

theorem isOwnedBy_congr (howners : t.ownerReferences = s.ownerReferences)
    (hlabels : t.metadata.labels = s.metadata.labels) (p : Pipeline) :
    t.isOwnedBy p = s.isOwnedBy p := by
  simp only [isOwnedBy, pipelineLabel, howners, hlabels]

theorem ownersWith_congr (howners : t.ownerReferences = s.ownerReferences)
    (hname : t.name = s.name) (hhome : t.namespaceName = s.namespaceName) (o : OwnerReference) :
    t.ownersWith o = s.ownersWith o := by
  simp only [ownersWith, howners, hname, hhome]

theorem ownersWith_eq_ok {o : OwnerReference} {owners : List OwnerReference}
    (h : s.ownersWith o = .ok owners) :
    owners = s.ownerReferences.filter (!isPipelineOwner ·) ++ [o] := by
  unfold ownersWith at h
  dsimp only at h
  split at h
  · cases h
  · cases h
    rfl

/-- The stage as the ownership patch stores it. -/
def patchedOwner (p : Pipeline) (owners : List OwnerReference) (version : String) (t : Stage) :
    Stage :=
  { t with
    metadata :=
      { t.metadata with
        ownerReferences := some owners
        labels := some ((t.metadata.labels.getD ∅).extend (.singleton pipelineLabelKey p.name))
        resourceVersion := some version } }

theorem pipelineName_patchedOwner (p : Pipeline) (others : List OwnerReference)
    (hothers : ∀ o ∈ others, isPipelineOwner o = false) (version : String) (t : Stage) :
    (t.patchedOwner p (others ++ [p.ownerReference]) version).pipelineName = p.name := by
  have hnone : others.find? isPipelineOwner = none :=
    List.find?_eq_none.2 fun o ho => by rw [hothers o ho]; decide
  have hfind : (others ++ [p.ownerReference]).find? isPipelineOwner = some p.ownerReference := by
    rw [List.find?_append, hnone]
    rfl
  simp only [pipelineName, ownerReferences, patchedOwner, Option.getD_some, hfind]
  rfl

theorem content_patchedOwner {p : Pipeline} (h : t.isOwnedBy p = false) (version : String) :
    (t.patchedOwner p (t.ownerReferences.filter (!isPipelineOwner ·) ++ [p.ownerReference])
      version).content = t.content.withOwner p := by
  have howned : t.content.isOwnedBy p = false := h
  rw [withOwner, howned, if_neg (by decide)]
  rfl

/-- The owner step looks at a copy of the stage and patches the stored one, whatever that is by now.
-/
theorem ensures_ensureOwnership_copy (ht : c.stages.get? s.key = some t) :
    s.ensureOwnership.Ensures F c fun r c' =>
      (c' = c ∧ ∃ e, r = .error e ∧ (F e ∨ ∀ p, c.pipelineOf s = .ok p → ¬ s.MayBelongTo p)) ∨
        (r = .ok () ∧ ∃ p, c.pipelineOf s = .ok p ∧
          (c' = c ∧ s.isOwnedBy p = true ∨
            ∃ owners, s.isOwnedBy p = false ∧ s.ownersWith p.ownerReference = .ok owners ∧
              c' = c.counted.writeStage s.key (t.patchedOwner p owners c.nextVersion)
                .ownership)) := by
  unfold ensureOwnership
  refine (Promotion.reads_pipelineOf s).ensures_bind (fun p hp => ?_) fun e he => ?_
  · refine ensures_ite (fun hyes => .inr ⟨rfl, p, hp, .inl ⟨rfl, hyes⟩⟩) fun hno => ?_
    cases howner : s.ownersWith p.ownerReference with
    | error e =>
        refine .inl ⟨rfl, e, rfl, .inr fun q hq hmay => ?_⟩
        rw [hp] at hq
        cases hq
        rcases hmay with hyes | ⟨owners, howners⟩
        · exact hno hyes
        · exact absurd (howner.symm.trans howners) error_ne_ok
    | ok owners =>
        have hserve : c.serve (.patchStageOwnership s.namespaceName s.name owners
            (.singleton pipelineLabelKey p.name)) =
              (.ok (), c.counted.writeStage s.key (t.patchedOwner p owners c.nextVersion)
                .ownership) := patchOwnership_of_stored ht
        refine ensures_request.2 ⟨fun e he => .inl ⟨rfl, e, rfl, .inl he⟩, ?_⟩
        rw [hserve]
        exact .inr ⟨rfl, p, hp, .inr ⟨owners, Bool.eq_false_iff.2 hno, howner, rfl⟩⟩
  · refine .inl ⟨rfl, e, rfl, he.symm.imp_right fun hno p hp => ?_⟩
    exact absurd (hno.symm.trans hp) error_ne_ok

/-- The same told about the stored stage, when both have one set of owners and labels. -/
theorem ensures_ensureOwnership_cases (ht : c.stages.get? s.key = some t) (hname : t.name = s.name)
    (hhome : t.namespaceName = s.namespaceName)
    (howners : t.ownerReferences = s.ownerReferences)
    (hlabels : t.metadata.labels = s.metadata.labels) :
    s.ensureOwnership.Ensures F c fun r c' =>
      (c' = c ∧ ∃ e, r = .error e ∧ (F e ∨ ∀ p, c.pipelineOf s = .ok p → ¬ t.MayBelongTo p)) ∨
        (r = .ok () ∧ ∃ p, c.pipelineOf s = .ok p ∧
          (c' = c ∧ t.isOwnedBy p = true ∨
            ∃ owners, t.isOwnedBy p = false ∧ t.ownersWith p.ownerReference = .ok owners ∧
              c' = c.counted.writeStage s.key (t.patchedOwner p owners c.nextVersion)
                .ownership)) := by
  simp only [MayBelongTo, isOwnedBy_congr howners hlabels, ownersWith_congr howners hname hhome]
  exact ensures_ensureOwnership_copy ht

/-- The contents tell who the owner is now. -/
theorem contents_patchedOwner {p : Pipeline} (ht : c.stages.get? s.key = some t)
    {owners : List OwnerReference} (hno : t.isOwnedBy p = false)
    (howner : t.ownersWith p.ownerReference = .ok owners) :
    (c.counted.writeStage s.key (t.patchedOwner p owners c.nextVersion) .ownership).contents =
      c.contents.atStage s (withOwner p) := by
  obtain rfl := ownersWith_eq_ok howner
  exact contents_writeStage (c := c.counted) ht (content_patchedOwner hno _) _

theorem contents_of_isOwnedBy {p : Pipeline} (ht : c.stages.get? s.key = some t)
    (hyes : t.isOwnedBy p = true) : c.contents.atStage s (withOwner p) = c.contents := by
  refine Contents.atStage_eq_self fun u hu => ?_
  obtain rfl : t.content = u := Option.some.inj ((Objects.seen_of_stored ht).symm.trans hu)
  exact withOwner_of_isOwnedBy hyes

/-- The owner goes on the stored stage, under a name that leads to the same pipeline. -/
theorem ensures_ensureOwnership (ht : c.stages.get? s.key = some t) (hlike : t.Like s)
    (howners : t.ownerReferences = s.ownerReferences)
    (hlabels : t.metadata.labels = s.metadata.labels) (hnames : c.NamesPipeline s) :
    s.ensureOwnership.Ensures F c
      (Effect F config s S (fun p => c.pipelineOf s = .ok p ∧ c.Ownable s p)
        (fun p d => d.atStage s (withOwner p)) c) := by
  have hway := UnderWay.refl config s c
  refine (ensures_ensureOwnership_cases ht hlike.name hlike.home howners hlabels).mono ?_
  rintro r c' (⟨rfl, e, rfl, he⟩ | ⟨rfl, p, hp, ⟨rfl, hyes⟩ | ⟨owners, hno, howner, rfl⟩⟩)
  · refine .stopped hway (he.imp (fun hF => ⟨e, hF⟩) ?_)
    rintro hno p ⟨hp, u, hu, hmay⟩
    rw [ht] at hu
    cases hu
    exact hno p hp hmay
  · exact .done hway ⟨hp, t, ht, .inl hyes⟩ (contents_of_isOwnedBy ht hyes).symm
  · refine .done ?_ ⟨hp, t, ht, .inr ⟨_, howner⟩⟩ (contents_patchedOwner ht hno howner)
    obtain rfl := ownersWith_eq_ok howner
    let t' := t.patchedOwner p (t.ownerReferences.filter (!isPipelineOwner ·) ++ [p.ownerReference])
      c.nextVersion
    have hcontent : t'.content = t.content.withOwner p := content_patchedOwner hno _
    have hname : t'.pipelineName = s.pipelineName := by
      refine (pipelineName_patchedOwner p _ (fun o ho => ?_) _ t).trans (hnames p hp)
      simpa using (List.mem_filter.1 ho).2
    have hlike' : t'.Like s :=
      ⟨hlike.name, hlike.namespaceName, hlike.isBeingDeleted, hname, hlike.spec, hlike.backlog⟩
    have hmay (q : Pipeline) (hq : c.pipelineOf s = .ok q) :
        t'.MayBelongTo q ↔ t.MayBelongTo q := by
      rw [hp] at hq
      cases hq
      have howned' : t'.content.isOwnedBy p = true := hcontent ▸ isOwnedBy_withOwner p _
      exact ⟨fun _ => .inr ⟨_, howner⟩, fun _ => .inl howned'⟩
    refine (underWay_counted config s c).trans
      (underWay_writeStage (c := c.counted) ht hlike hlike' hmay (fun q hq => ?_) _)
    have hsame := hq.pipeline
    rw [show c.counted.pipelineOf s = c.pipelineOf s from rfl, hp] at hsame
    cases hsame
    rw [hcontent, settled_withOwner]

/-! ### Finalizer -/

/-- The finalizer goes on, and owners and labels stay. -/
theorem ensures_ensureFinalizer (hs : c.stages.get? s.key = some s) :
    s.ensureFinalizer.Ensures F c fun r c' =>
      Effect F config s S (fun _ : Unit => True) (fun _ d => d.atStage s withFinalizer) c r c' ∧
        ∃ t, c'.stages.get? s.key = some t ∧ t.Like s ∧ t.ownerReferences = s.ownerReferences ∧
          t.metadata.labels = s.metadata.labels := by
  have hway := UnderWay.refl config s c
  have hseen (u : Stage) (hu : c.contents.stages s.key = some u) : u = s.content :=
    Option.some.inj (hu.symm.trans (Objects.seen_of_stored hs))
  unfold ensureFinalizer
  cases hadd : Finalizers.add? s.metadata.finalizers finalizer with
  | none =>
      refine ⟨.done hway (x := ()) trivial ?_, s, hs, .refl s, rfl, rfl⟩
      refine (Contents.atStage_eq_self fun u hu => ?_).symm
      rw [hseen u hu]
      exact withFinalizer_of_none hadd
  | some finalizers =>
      let t : Stage :=
        { s with
          metadata :=
            { s.metadata with
              finalizers := some finalizers, resourceVersion := some c.nextVersion } }
      have hne : (finalizers.isEmpty && s.isBeingDeleted) = false := by
        rw [add?_eq_some hadd]
        simp
      have hserve : c.serve (.patchStageFinalizers s.namespaceName s.name s.metadata.resourceVersion
          finalizers) = (.ok (), c.counted.writeStage s.key t .finalizers) :=
        patchFinalizers_of_kept hs hne
      have hcontent : t.content = s.content.withFinalizer :=
        (withFinalizer_of_some (s := s.content) hadd).symm
      have hlike : t.Like s := ⟨rfl, rfl, rfl, rfl, rfl, .refl _⟩
      have hway' : UnderWay config s c (c.counted.writeStage s.key t .finalizers) := by
        refine (underWay_counted config s c).trans
          (underWay_writeStage (c := c.counted) hs (.refl s) hlike (fun p _ => Iff.rfl)
            (fun p _ => ?_) _)
        rw [hcontent, settled_withFinalizer]
      have hget : (c.counted.writeStage s.key t .finalizers).stages.get? s.key = some t :=
        Dict.get?_insert_self ..
      refine ensures_request_bind.2 ⟨fun e he => ?_, ?_⟩
      · exact ⟨.fault he hway _, s, hs, .refl s, rfl, rfl⟩
      · rw [hserve]
        refine ⟨.done hway' (x := ()) trivial ?_, t, hget, hlike, rfl, rfl⟩
        exact contents_writeStage (c := c.counted) hs hcontent _

end Stage

/-! ### Provisioning as a whole -/

theorem ensures_publish (hc : c.Coherent) (hS : S → c.Separate s) :
    (Promotion.promote s >>= fun _ => ReleaseJob.put s).Ensures F c
      (Effect F config s S (c.Publishes s ·)
        (fun p d => (d.withStreams s p p.codebases).withJob s p.pipeline) c) := by
  have hpromote : (Promotion.promote s).Ensures F c (Effect F config s S _ _ c) :=
    Promotion.ensures_promote hc hS
  refine (hpromote.and (hc.ensures _)).bind ?_ ?_
  · rintro a c' ⟨hpart, hc'⟩
    have hput : (ReleaseJob.put s).Ensures F c' (Effect F config s S _ _ c') :=
      ReleaseJob.ensures_put hc'
    refine hput.mono fun r c'' hrest => ?_
    refine ⟨hpart.kept.trans hrest.kept,
      fun hs => (hpart.underWay hs).trans (hrest.underWay hs), ?_, ?_⟩
    · intro b hb
      rcases hpart.success a rfl with hfault | ⟨p, hp, hcontents⟩
      · exact .inl hfault
      rcases hrest.success b hb with hfault | ⟨pipeline, hpipeline, hcontents'⟩
      · exact .inl hfault
      refine .inr ⟨p, hp, ?_⟩
      rw [hpart.kept.pipelineOf, hp.pipeline] at hpipeline
      cases hpipeline
      rw [hcontents', hcontents]
    · intro e he
      refine (hrest.failure e he).imp_right fun hno p hp => hno p.pipeline ?_
      exact hpart.kept.pipelineOf.trans hp.pipeline
  · rintro e c' ⟨hpart, -⟩
    exact ⟨hpart.kept, hpart.underWay, fun a ha => absurd ha error_ne_ok, fun _ _ =>
      hpart.failure e rfl⟩

theorem ensures_provision (hc : c.Coherent) (hS : S → c.Separate s) :
    (provision config s).Ensures F c
      (Effect F config s S
        (fun p => (config.managesNamespaces = true ∨
          c.namespaces.contains s.targetNamespace = true) ∧ c.Publishes s p)
        (fun p d => d.provided config s p) c) := by
  rw [Target.provision_eq]
  refine (ensures_bind_effect hc Target.ensures_placing (fun c' hc' hway' =>
    ensures_bind_effect hc' (Access.ensures_configure hc') (fun c'' hc'' hway'' =>
      ensures_publish (S := S) hc'' fun hs => hway''.separate (hway'.separate (hS hs)))
      fun c'' hway'' p => hway''.publishes p)
    fun c' hway' y => and_congr_right fun _ => hway'.publishes y.2).mono fun r c' h => ?_
  refine h.reindex ?_ ?_
  · rintro ⟨⟨⟩, ⟨⟩, p⟩ ⟨htarget, -, hp⟩
    exact ⟨p, ⟨htarget, hp⟩, rfl⟩
  · rintro p ⟨htarget, hp⟩
    exact ⟨((), (), p), htarget, trivial, hp⟩

namespace Stage

theorem ensures_provisionOwned (hc : c.Coherent) (hS : S → c.Separate s)
    (ht : c.stages.get? s.key = some t) (hlike : t.Like s)
    (howners : t.ownerReferences = s.ownerReferences)
    (hlabels : t.metadata.labels = s.metadata.labels) (hnames : c.NamesPipeline s) :
    (s.provisionOwned config).Ensures F c
      (Effect F config s S (c.Plans config s ·)
        (fun p d => (d.atStage s (withOwner p.pipeline)).provided config s p) c) := by
  refine (ensures_bind_effect hc (ensures_ensureOwnership ht hlike howners hlabels hnames)
    (fun c' hc' hway' => ensures_provision (S := S) hc' fun hs => hway'.separate (hS hs))
    fun c' hway' p => and_congr hway'.target (hway'.publishes p)).mono fun r c' h => ?_
  refine h.reindex ?_ ?_
  · rintro ⟨pipeline, p⟩ ⟨⟨hpipeline, howner⟩, htarget, hp⟩
    obtain rfl : pipeline = p.pipeline := by
      rw [hp.pipeline] at hpipeline
      exact (Except.ok.inj hpipeline).symm
    exact ⟨p, ⟨hpipeline, howner, htarget, hp.codebases, hp.registry⟩, rfl⟩
  · intro p hp
    exact ⟨(p.pipeline, p), ⟨hp.pipeline, hp.owner⟩, hp.target, hp.publishes⟩

/-! ### Report -/

/-- A status of this reconcile goes on the stored stage. -/
theorem ensures_writeStatus {status : StageStatus} {now : Timestamp}
    (hdate : status.lastTimeUpdated = some now) (hbacklog : SameBacklog (some status) s.status)
    (hc : c.Holds s) :
    (s.writeStatus status).Ensures F c fun r c' => UnderWay config s c c' ∧
      ((∃ e, F e) ∨ r = .ok () ∧ c'.contents = c.contents.atStage s (withStatus status)) := by
  obtain ⟨t, ht, hlike⟩ := hc
  let t' : Stage := { t with status := some status }
  have hserve : c.serve (.patchStageStatus s.namespaceName s.name status) =
      (.ok (), c.writeStage s.key t' .status) := patchStatus_of_dated ht hdate
  have hlike' : t'.Like s :=
    ⟨hlike.name, hlike.namespaceName, hlike.isBeingDeleted, hlike.pipelineName, hlike.spec,
      hbacklog⟩
  have hsettled (p : Plan) (_ : c.Plans config s p) :
      t'.content.settled p.pipeline = t.content.settled p.pipeline :=
    settled_withStatus (s := t.content) p.pipeline
      ((hbacklog.trans hlike.backlog.symm).trans (sameBacklog_undated t.status).symm)
  have hcontent : t'.content = t.content.withStatus status := rfl
  have hcontents := contents_writeStage ht hcontent .status
  refine ensures_request.2 ⟨fun e he => ⟨.refl config s c, .inl ⟨e, he⟩⟩, ?_⟩
  rw [hserve]
  exact ⟨underWay_writeStage ht hlike hlike' (fun _ _ => Iff.rfl) hsettled _, .inr ⟨rfl, hcontents⟩⟩

/-- The report says what the provisioning has come to. -/
theorem ensures_report (now : Timestamp) (hc : c.Holds s) (r : Except Error Unit) :
    (s.report now r).Ensures F c fun r' c' => UnderWay config s c c' ∧ ((∃ e, F e) ∨
      match r with
      | .ok () => r' = .ok .awaitChange ∧
        c'.contents = c.contents.atStage s (withStatus (.provisioned now s.status))
      | .error e => r' = .error e) := by
  cases r with
  | ok a =>
      have hdate : (StageStatus.provisioned now s.status).lastTimeUpdated = some now := rfl
      have hwrite : (s.writeStatus _).Ensures F c fun r c' => UnderWay config s c c' ∧ _ :=
        ensures_writeStatus hdate (sameBacklog_provisioned now s.status) hc
      refine hwrite.bind ?_ ?_
      · rintro b c' ⟨hway, hwritten⟩
        exact ⟨hway, hwritten.imp_right fun h => ⟨rfl, h.2⟩⟩
      · rintro e c' ⟨hway, hfault | ⟨hok, -⟩⟩
        · exact ⟨hway, .inl hfault⟩
        · exact absurd hok error_ne_ok
  | error e =>
      have hdate : (StageStatus.failed now e s.status).lastTimeUpdated = some now := rfl
      have hwrite : (s.writeStatus _).Ensures F c fun r c' => UnderWay config s c c' ∧ _ :=
        ensures_writeStatus hdate (sameBacklog_failed now e s.status) hc
      refine ensures_attempt_bind.2 (hwrite.mono ?_)
      rintro r' c' ⟨hway, -⟩
      exact ⟨hway, .inr rfl⟩

/-- **What a reconcile of a live stage comes to.** On the way it never leaves the course; it
succeeds when all that it depends on is in order, and then the contents are what they are to become.
-/
theorem ensures_reconcile (config : Config) (now : Timestamp) (hc : c.Coherent)
    (hs : c.stages.get? s.key = some s) (hlive : s.isBeingDeleted = false)
    (hnames : c.NamesPipeline s) :
    (s.reconcile config now).Ensures F c
      (Effect F config s (c.Separate s) (c.Plans config s ·) (fun p d => d.aim config s p) c) := by
  rw [reconcile, if_neg (by rw [hlive]; decide)]
  have hfinalizer : s.ensureFinalizer.Ensures F c fun r c' =>
      Effect F config s True _ _ c r c' ∧ _ := ensures_ensureFinalizer hs
  refine (hfinalizer.and (hc.ensures _)).bind ?_ ?_
  · rintro a c₁ ⟨⟨hfin, t, ht, hlike, howners, hlabels⟩, hc₁⟩
    have hway := hfin.underWay trivial
    have hnames₁ : c₁.NamesPipeline s := fun p hp => hnames p (hway.pipelineOf ▸ hp)
    -- What the provisioning comes to is only reported; the report takes nothing back.
    have hprovision : (s.provisionOwned config).Ensures F c₁
        (Effect F config s (c.Separate s) _ _ c₁) :=
      ensures_provisionOwned hc₁ (fun hseparate => hway.separate hseparate) ht hlike howners hlabels
        hnames₁
    refine ensures_attempt_bind.2 (hprovision.mono fun r c₂ hprov => ?_)
    have hreport : (s.report now r).Ensures F c₂ fun r' c' => UnderWay config s c₂ c' ∧ _ :=
      ensures_report now (hprov.kept.stored ⟨t, ht, hlike⟩) r
    refine hreport.mono ?_
    rintro r' c₃ ⟨hway', hreport⟩
    refine ⟨(hway.toKept.trans hprov.kept).trans hway'.toKept,
      fun hseparate => (hway.trans (hprov.underWay hseparate)).trans hway', ?_, ?_⟩
    · intro b hb
      rcases hreport with hfault | hreport
      · exact .inl hfault
      cases r with
      | error e =>
          rw [hb] at hreport
          exact absurd hreport.symm error_ne_ok
      | ok u =>
          rcases hfin.success a rfl with hfault | ⟨-, -, h₁⟩
          · exact .inl hfault
          rcases hprov.success u rfl with hfault | ⟨p, hp, h₂⟩
          · exact .inl hfault
          refine .inr ⟨p, (hway.plans p).1 hp, ?_⟩
          rw [hreport.2, h₂, h₁]
          refine Contents.parts_eq_aim now fun u hu => ?_
          obtain rfl := Option.some.inj (hu.symm.trans (Objects.seen_of_stored hs))
          exact (sameBacklog_undated s.status).symm
    · intro e he
      rcases hreport with hfault | hreport
      · exact .inl hfault
      cases r with
      | ok u =>
          rw [he] at hreport
          exact absurd hreport.1 error_ne_ok
      | error e' =>
          refine (hprov.failure e' rfl).imp_right fun hno p hp => ?_
          exact hno p ((hway.plans p).2 hp)
  · rintro e c' ⟨⟨hfin, -⟩, -⟩
    refine ⟨hfin.kept, fun _ => hfin.underWay trivial, fun a ha => absurd ha error_ne_ok,
      fun _ _ => ?_⟩
    exact (hfin.failure e rfl).imp_right fun hno => absurd trivial (hno ())

end Stage

end Conveyor
