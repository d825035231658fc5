import Conveyor.Proofs.FixedPoint
import Conveyor.Proofs.Scenario
import Conveyor.Proofs.Streams
import Conveyor.Proofs.Strictness

/-!
What a report of success is worth. A reconcile of a live stage that comes back with success has
everything done that the stage asks for, whatever the cluster held before and whichever of its
requests failed on the way. Only the making of the target may have failed unnoticed. So the contents
are those of the aim, the places aside, and what they hold is read off from there.
-/

namespace Conveyor

open Session Cluster
open Resource (unversioned)

variable {config : Config} {s t : Stage} {F : Error → Prop} {c c' : Cluster} {now : Timestamp}

/-! ### The parts under failures -/

theorem Target.ensures_placing_changes :
    (placing config s).Ensures F c fun _ c' => ChangesIn .places c c' := by
  refine (asks_placing config s).ensures (fun r d hr hd => ?_) ⟨_, _, _, rfl⟩
  cases hpart : r.part with
  | none => exact (serve_of_part_eq_none hpart d).symm ▸ hd
  | some part =>
      rw [Request.Within, hpart] at hr
      obtain rfl := List.mem_singleton.1 hr
      obtain ⟨_, _, _, hd'⟩ := changesIn_serve hpart d
      obtain ⟨_, _, _, rfl⟩ := hd
      exact ⟨_, _, _, hd'⟩

/-- A stage comes not before itself, whatever is written to it. -/
theorem Cluster.predecessor_writeStage {t' : Stage} (ht : c.stages.get? s.key = some t)
    (horder : t.spec.order = s.spec.order) (horder' : t'.spec.order = s.spec.order)
    (w : StageWrite) (pipeline : String) :
    (c.writeStage s.key t' w).predecessor s pipeline = c.predecessor s pipeline := by
  refine predecessor_congr (fun k u hu => ?_) pipeline
  by_cases hk : k = s.key
  · subst hk
    have hnew : (c.writeStage s.key t' w).stages.get? s.key = some t' := Dict.get?_insert_self ..
    rw [hnew, ht]
    constructor
    · rintro ⟨⟩
      omega
    · rintro ⟨⟩
      omega
  · have hother : (c.writeStage s.key t' w).stages.get? k = c.stages.get? k :=
      Dict.get?_insert_of_ne _ _ hk
    rw [hother]

namespace Stage

theorem spec_withOwner (p : Pipeline) (s : Stage) : (s.withOwner p).spec = s.spec := by
  unfold withOwner
  split <;> rfl

/-- A dated status is written to the stored stage, or nothing happens. -/
theorem ensures_writeStatus_cases {status : StageStatus}
    (hdate : status.lastTimeUpdated = some now) :
    (s.writeStatus status).Ensures F c fun r c' => (∃ e, r = .error e ∧ c' = c) ∨
      ∃ t, r = .ok () ∧ c.stages.get? s.key = some t ∧
        c' = c.writeStage s.key { t with status := some status } .status := by
  refine ensures_request.2 ⟨fun e _ => .inl ⟨e, rfl, rfl⟩, ?_⟩
  cases ht : c.stages.get? s.key with
  | none =>
      have hserve : c.serve (.patchStageStatus s.namespaceName s.name status) =
          (.error (.notFound Kind.stage.name s.namespaceName s.name), c) := by
        have ht : c.stages.get? ⟨s.namespaceName, s.name⟩ = none := ht
        simp only [serve, patchStatus, ht]
        rfl
      rw [hserve]
      exact .inl ⟨_, rfl, rfl⟩
  | some t =>
      have hserve : c.serve (.patchStageStatus s.namespaceName s.name status) =
          (.ok (), c.writeStage s.key { t with status := some status } .status) :=
        patchStatus_of_dated ht hdate
      rw [hserve]
      exact .inr ⟨t, rfl, rfl, rfl⟩

/-- The status goes on the stored stage. -/
theorem ensures_report_ok (ht : c.stages.get? s.key = some t) :
    (s.report now (.ok ())).Ensures F c fun r c' => ∀ a, r = .ok a →
      c' = c.writeStage s.key { t with status := some (.provisioned now s.status) } .status := by
  have hdate : (StageStatus.provisioned now s.status).lastTimeUpdated = some now := rfl
  refine (ensures_writeStatus_cases hdate).bind ?_ fun e c' _ a ha => absurd ha error_ne_ok
  rintro u c' (⟨e, h, -⟩ | ⟨t', -, ht', rfl⟩) a -
  · exact absurd h.symm error_ne_ok
  · obtain rfl := Option.some.inj (ht.symm.trans ht')
    rfl

/-- A failure is reported as one. -/
theorem ensures_report_error (e : Error) :
    (s.report now (.error e)).Ensures F c fun r _ => r = .error e :=
  ensures_attempt_bind.2 ((ensures_true _).mono fun _ _ _ => rfl)

end Stage

/-! ### The whole reconcile -/

/-- Provisioning that ends well has published what the stage consumes at the start of the
publication, in a cluster `d` that differs from the first one by the target alone. -/
theorem ensures_provision_ok (hc : c.Coherent) :
    (provision config s).Ensures F c fun r c' => ∀ a, r = .ok a →
      ∃ p d, ChangesIn .places c d ∧ d.Publishes s p ∧
        c'.contents = { c.contents.provided config s p with places := c'.places } := by
  rw [Target.provision_eq]
  refine (Target.ensures_placing_changes.and (hc.ensures _)).bind ?_
    fun e d _ a ha => absurd ha error_ne_ok
  rintro u d ⟨hplaced, hd⟩
  have hstrict : (Access.configure config s >>= fun _ => Promotion.promote s >>= fun _ =>
      ReleaseJob.put s).Strict F :=
    (Access.strict_configure config s).bind fun _ => (Promotion.strict_promote s).bind fun _ =>
      ReleaseJob.strict_put s
  have hrest := hstrict.ensures (ensures_bind_effect (S := False) hd (Access.ensures_configure hd)
    (fun d' hd' _ => ensures_publish hd' False.elim) fun d' hway p => hway.publishes p)
  refine hrest.mono fun r c' h a ha => ?_
  obtain ⟨⟨_, p⟩, ⟨_, hp⟩, hcontents⟩ := ((h a ha).success a rfl).resolve_left (by simp)
  refine ⟨p, d, hplaced, hp, ?_⟩
  have hplaces : c'.places = d.places := congrArg (·.places) hcontents
  obtain ⟨_, _, _, rfl⟩ := hplaced
  rw [hcontents, hplaces]
  rfl

namespace Stage

/-- The owner goes on, under whatever name the pipeline has. -/
theorem ensures_provisionOwned_ok (hc : c.Coherent) (ht : c.stages.get? s.key = some t)
    (hname : t.name = s.name) (hhome : t.namespaceName = s.namespaceName)
    (howners : t.ownerReferences = s.ownerReferences)
    (hlabels : t.metadata.labels = s.metadata.labels) :
    (s.provisionOwned config).Ensures F c fun r c' => ∀ a, r = .ok a →
      ∃ (p : Plan) (d : Cluster), c.pipelineOf s = .ok p.pipeline ∧
        c.registryUrl s.namespaceName = .ok p.registry ∧
        d.Publishes s p ∧ d.imageStreams = c.imageStreams ∧ c'.stages = d.stages ∧
          c'.contents =
            { (c.contents.atStage s (withOwner p.pipeline)).provided config s p with
              places := c'.places } := by
  have hkeeps : s.ensureOwnership.Ensures F c fun _ c' => c'.imageStreams = c.imageStreams :=
    (s.asks_ensureOwnership.mono fun _ hr => hr.1).ensures_imageStreams (by decide)
  refine (((ensures_ensureOwnership_cases ht hname hhome howners hlabels).and hkeeps).and
    (hc.ensures _)).bind ?_ fun e d _ a ha => absurd ha error_ne_ok
  rintro u c₁ ⟨⟨howner, hsame⟩, hc₁⟩
  obtain ⟨p, hp, hcontents⟩ : ∃ p, c.pipelineOf s = .ok p ∧
      c₁.contents = c.contents.atStage s (withOwner p) := by
    rcases howner with ⟨-, e, h, -⟩ | ⟨-, p, hp, ⟨rfl, hyes⟩ | ⟨owners, hno, howner, rfl⟩⟩
    · exact absurd h.symm error_ne_ok
    · exact ⟨p, hp, (contents_of_isOwnedBy ht hyes).symm⟩
    · exact ⟨p, hp, contents_patchedOwner ht hno howner⟩
  have hstages : (provision config s).Ensures F c₁ fun _ c' => c'.stages = c₁.stages :=
    (asks_provision config s).ensures_stages (by decide)
  refine (hstages.and (ensures_provision_ok hc₁)).mono ?_
  rintro r c' ⟨hstages, hprovision⟩ a ha
  obtain ⟨plan, d, ⟨_, _, _, rfl⟩, hplan, hcontents'⟩ := hprovision a ha
  have hpipelines : c₁.pipelines = c.pipelines := congrArg (·.pipelines) hcontents
  have hcomponents : c₁.components = c.components := congrArg (·.components) hcontents
  have hpipeline : c.pipelineOf s = .ok plan.pipeline := by
    rw [← hplan.pipeline]
    simp only [pipelineOf, hpipelines]
  have hregistry : c.registryUrl s.namespaceName = .ok plan.registry := by
    rw [← hplan.registry]
    simp only [registryUrl, hcomponents]
  obtain rfl : p = plan.pipeline := Except.ok.inj (hp.symm.trans hpipeline)
  rw [hcontents] at hcontents'
  exact ⟨plan, _, hpipeline, hregistry, hplan, hsame, hstages, hcontents'⟩

/-- **Success is the aim.** Whichever requests have failed unnoticed, the contents are what they are
to become, the places aside. -/
theorem ensures_reconcile_ok (config : Config) (now : Timestamp) (hc : c.Coherent)
    (hs : c.stages.get? s.key = some s) (hlive : s.isBeingDeleted = false) :
    (s.reconcile config now).Ensures F c fun r c' => ∀ a, r = .ok a →
      ∃ (p : Plan) (d : Cluster), c.pipelineOf s = .ok p.pipeline ∧
        c.registryUrl s.namespaceName = .ok p.registry ∧ d.Publishes s p ∧
          d.imageStreams = c.imageStreams ∧
            (∀ pipeline, c'.predecessor s pipeline = d.predecessor s pipeline) ∧
              c'.contents = { c.contents.aim config s p with places := c'.places } := by
  rw [reconcile, if_neg (by rw [hlive]; decide)]
  have hkeeps : s.ensureFinalizer.Ensures F c fun _ c' => c'.imageStreams = c.imageStreams :=
    (s.asks_ensureFinalizer.mono fun _ hr => hr.1).ensures_imageStreams (by decide)
  have hfinalizer : s.ensureFinalizer.Ensures NoFailure c fun r c' =>
      Effect _ config s True _ _ c r c' ∧ _ := ensures_ensureFinalizer hs
  refine (((s.strict_ensureFinalizer.ensures hfinalizer).and hkeeps).and (hc.ensures _)).bind ?_
    fun e d _ a ha => absurd ha error_ne_ok
  rintro added c₁ ⟨⟨hfinalizer, hsame⟩, hc₁⟩
  obtain ⟨heffect, t, ht, hlike, howners, hlabels⟩ := hfinalizer added rfl
  obtain ⟨-, -, h₁⟩ := (heffect.success added rfl).resolve_left (by simp)
  refine ensures_attempt_bind.2 ((ensures_provisionOwned_ok hc₁ ht hlike.name hlike.home howners
    hlabels).mono ?_)
  rintro (e | u) c₂ hprovision
  · refine (ensures_report_error e).mono fun r c' hr a ha => ?_
    exact absurd (hr.symm.trans ha) error_ne_ok
  obtain ⟨p, d, hpipeline, hregistry, hplan, hstreams, hstages, h₂⟩ := hprovision u rfl
  have hpipelines : c₁.pipelines = c.pipelines := congrArg (·.pipelines) h₁
  have hcomponents : c₁.components = c.components := congrArg (·.components) h₁
  -- The stage has kept its place in the order, so it still finds the same predecessor.
  obtain ⟨t₂, ht₂, hspec⟩ : ∃ t₂, c₂.stages.get? s.key = some t₂ ∧ t₂.spec = s.spec := by
    have hseen : c₂.contents.stages s.key = some (t.content.withOwner p.pipeline) :=
      calc
        c₂.contents.stages s.key = (c₁.contents.stages s.key).map (withOwner p.pipeline) :=
          (congrArg (·.stages s.key) h₂).trans (Table.alter_self ..)
        _ = some (t.content.withOwner p.pipeline) :=
          congrArg (Option.map (withOwner p.pipeline)) (Objects.seen_of_stored ht)
    obtain ⟨t₂, ht₂, hcontent⟩ := Option.map_eq_some_iff.1 hseen
    have hspec : t₂.spec = (t.content.withOwner p.pipeline).spec := congrArg (·.spec) hcontent
    exact ⟨t₂, ht₂, (hspec.trans (spec_withOwner _ _)).trans hlike.spec⟩
  refine (ensures_report_ok ht₂).mono fun r c₃ hr a ha => ?_
  obtain rfl := hr a ha
  refine ⟨p, d, ?_, ?_, hplan, hstreams.trans hsame, fun pipeline => ?_, ?_⟩
  · rw [← hpipeline, pipelineOf, pipelineOf, hpipelines]
  · rw [← hregistry, registryUrl, registryUrl, hcomponents]
  · have hsame : c₂.predecessor s pipeline = d.predecessor s pipeline :=
      predecessor_congr (fun _ _ _ => by rw [hstages]) pipeline
    refine (predecessor_writeStage ht₂ ?_ ?_ _ _).trans hsame <;> exact congrArg (·.order) hspec
  · let t₃ : Stage := { t₂ with status := some (.provisioned now s.status) }
    have hcontent : t₃.content = t₂.content.withStatus (.provisioned now s.status) := rfl
    have h₃ := contents_writeStage ht₂ hcontent .status
    have haim : (((c.contents.atStage s withFinalizer).atStage s (withOwner p.pipeline)).provided
        config s p).atStage s (withStatus (.provisioned now s.status)) =
          c.contents.aim config s p := by
      refine Contents.parts_eq_aim now fun u hu => ?_
      obtain rfl := Option.some.inj (hu.symm.trans (Objects.seen_of_stored hs))
      exact (sameBacklog_undated s.status).symm
    rw [h₃, h₂, h₁, ← haim]
    rfl

end Stage

/-! ### What has been delivered -/

/-- The status of a stage whose provisioning went well. -/
structure StageStatus.TellsSuccess (x : StageStatus) : Prop where
  available : x.available = true
  status : x.status = "created"
  result : x.result = "success"
  value : x.value = "active"
  detailedMessage : x.detailedMessage = none

/-- What is there after is what was there before, and a desired object where nothing was. The
version is up to the store. -/
def Access.Ensured {α : Type} [Resource α] (desired : α) (before after : Option α) : Prop :=
  ∃ a, after = some a ∧ unversioned a = (before.map unversioned).getD desired

/-- All that the stage `s` of the pipeline `p` asks for, in the cluster `c'` that a reconcile from
`c` has led to. -/
structure Cluster.Delivered (config : Config) (s : Stage) (p : Pipeline) (registry : String)
    (c c' : Cluster) : Prop where
  stage : ∃ t status, c'.stages.get? s.key = some t ∧ t.hasFinalizer = true ∧
    t.pipelineLabel = some p.name ∧ t.status = some status ∧ status.TellsSuccess
  role :
    let key : ObjectKey := ⟨s.targetNamespace, Access.viewDeploymentsRole⟩
    Access.Ensured (Access.deploymentsRole s.targetNamespace) (c.roles.get? key)
      (c'.roles.get? key)
  bindings : ∀ b ∈ Access.bindings s.namespaceName s.targetNamespace config,
    let key := Access.bindingKey s.targetNamespace b
    Access.Ensured b (c.roleBindings.get? key) (c'.roleBindings.get? key)
  /-- Each codebase is published as its input named it before. -/
  streams : ∀ input ∈ p.spec.inputStreams, ∃ x v,
    c.codebaseAt ⟨s.namespaceName, input⟩ = some x ∧
      c'.imageStreams.get?
        ⟨s.namespaceName, Promotion.verifiedName p.name s.spec.name x⟩ = some v ∧
      v.spec.codebase = x ∧ v.spec.imageName = registry ++ "/" ++ s.namespaceName ++ "/" ++ x
  /-- The predecessor has published the same codebases. -/
  supply : s.spec.order ≠ 0 → ∃ q, c'.predecessor s p.name = .ok q ∧
    ∀ input ∈ p.spec.inputStreams, ∀ x, c.codebaseAt ⟨s.namespaceName, input⟩ = some x →
      ∃ v, c'.imageStreams.get?
        ⟨s.namespaceName, Promotion.verifiedName p.name q.spec.name x⟩ = some v
  job : ∃ j, c'.releaseJobs.get? s.key = some j ∧ j.spec = (ReleaseJob.desired s p).spec

theorem Stage.Provisioned.tellsSuccess {p : Pipeline} (h : t.Provisioned p) :
    ∃ status, t.status = some status ∧ status.TellsSuccess := by
  obtain ⟨status, hsome, hstatus⟩ := h.status
  refine ⟨status, hsome, ?_⟩
  rw [hstatus]
  exact ⟨rfl, rfl, rfl, rfl, rfl⟩

theorem Stage.Provisioned.pipelineLabel {p : Pipeline} (h : t.Provisioned p) :
    t.pipelineLabel = some p.name := by
  have howner := h.owner
  rw [isOwnedBy, Bool.and_eq_true] at howner
  exact eq_of_beq howner.2

theorem Access.ensured_of_seen {α : Type} [Resource α] {desired : α} {namespaceName : String}
    (hself : Resource.inNamespace desired namespaceName = desired) {os os' : Objects α}
    {k : ObjectKey}
    (h : os'.seen unversioned k = supply desired namespaceName (os.seen unversioned k)) :
    Ensured desired (os.get? k) (os'.get? k) := by
  have hsome : os'.seen unversioned k = some (((os.get? k).map unversioned).getD desired) := by
    rw [h, Objects.seen]
    cases os.get? k with
    | none => exact congrArg some hself
    | some a => rfl
  exact Option.map_eq_some_iff.1 hsome

theorem Access.inNamespace_of_mem_bindings {source target : String} {b : RoleBinding}
    (hb : b ∈ bindings source target config) : Resource.inNamespace b target = b := by
  obtain ⟨name, hmetadata⟩ := metadata_of_mem_bindings hb
  obtain ⟨m, roleRef, subjects⟩ := b
  cases hmetadata
  rfl

namespace Cluster

/-- Streams come, and none goes. -/
theorem exists_stream_of_aim {p : Plan}
    (h : c'.contents.imageStreams = (c.contents.aim config t p).imageStreams) {k : ObjectKey}
    {y : ImageStream} (hy : c.imageStreams.get? k = some y) :
    ∃ z, c'.imageStreams.get? k = some z := by
  by_cases hk : ∃ x ∈ p.codebases, p.streamKey t x = k
  · obtain ⟨x, hx, rfl⟩ := hk
    obtain ⟨v, hv, -⟩ := stream_of_aim h hx
    exact ⟨v, hv⟩
  · obtain ⟨z, hz, -⟩ := stream_of_aim_of_ne h (fun x hx he => hk ⟨x, hx, he⟩) hy
    exact ⟨z, hz⟩

/-- The aim is all that was to be delivered. -/
theorem delivered_of_aim {p : Plan} {d : Cluster} (hs : c.stages.get? s.key = some s)
    (hplan : d.Publishes s p) (hsame : d.imageStreams = c.imageStreams)
    (hpredecessor : ∀ pipeline, c'.predecessor s pipeline = d.predecessor s pipeline)
    (hcontents : c'.contents = { c.contents.aim config s p with places := c'.places }) :
    c.Delivered config s p.pipeline p.registry c' := by
  obtain ⟨ds, hds, -⟩ := codebases_eq_ok.1 hplan.codebases
  have hsupplies : d.Supplies s p.pipeline := supplies_iff.2 ⟨hplan.pipeline, ds, hds⟩
  have hstreams : c'.contents.imageStreams = (c.contents.aim config s p).imageStreams :=
    congrArg (·.imageStreams) hcontents
  refine ⟨?_, ?_, fun b hb => ?_, fun input hinput => ?_, fun hfirst => ?_, ?_⟩
  · have hseen : c'.contents.stages s.key = some (s.content.settled p.pipeline) :=
      calc
        c'.contents.stages s.key = (c.contents.stages s.key).map (Stage.settled p.pipeline) :=
          (congrArg (·.stages s.key) hcontents).trans (Table.alter_self ..)
        _ = some (s.content.settled p.pipeline) :=
          congrArg (Option.map (Stage.settled p.pipeline)) (Objects.seen_of_stored hs)
    obtain ⟨t, ht, hcontent⟩ := Option.map_eq_some_iff.1 hseen
    have hprovisioned : t.Provisioned p.pipeline := Stage.provisioned_of_content hcontent
    obtain ⟨status, hstatus, hsuccess⟩ := hprovisioned.tellsSuccess
    exact ⟨t, status, ht, hprovisioned.finalizer, hprovisioned.pipelineLabel, hstatus, hsuccess⟩
  · have hself : Resource.inNamespace (Access.deploymentsRole s.targetNamespace)
        s.targetNamespace = Access.deploymentsRole s.targetNamespace := rfl
    refine Access.ensured_of_seen hself ?_
    let key : ObjectKey := ⟨s.targetNamespace, Access.viewDeploymentsRole⟩
    exact (congrArg (·.roles key) hcontents).trans (Table.alter_self ..)
  · refine Access.ensured_of_seen (Access.inNamespace_of_mem_bindings hb) ?_
    let key := Access.bindingKey s.targetNamespace b
    exact (congrArg (·.roleBindings key) hcontents).trans
      (Table.alterAll_of_mem (Access.consistent_bindings ..) hb _)
  · obtain ⟨x, hx⟩ := hsupplies.sources input hinput
    obtain ⟨source, hsource, rfl⟩ := codebaseAt_eq_some.1 hx
    obtain ⟨v, hv, hcodebase, himage⟩ :=
      stream_of_aim hstreams (mem_codebases hplan.codebases hinput hsource)
    rw [codebaseAt_congr hsame] at hx
    exact ⟨_, v, hx, hv, hcodebase, himage⟩
  · obtain ⟨q, hq, hverified⟩ := hsupplies.verified hfirst
    refine ⟨q, ?_, fun input hinput x hx => ?_⟩
    · rw [hpredecessor, predecessor, hq]
      rfl
    · rw [← codebaseAt_congr hsame] at hx
      obtain ⟨y, hy⟩ := hverified input hinput x hx
      obtain ⟨v, hv, -⟩ := codebaseAt_eq_some.1 hy
      rw [hsame] at hv
      exact exists_stream_of_aim hstreams hv
  · exact job_of_aim (congrArg (·.releaseJobs) hcontents)

end Cluster

namespace World

/-- **A report of success is truthful.** Whenever the reconcile of a stored live stage comes back
with success, in whatever cluster and whatever fails on the way, the stage's pipeline and registry
have been found, and all that the stage asks for is there. -/
theorem success_delivers {w : World} (hw : w.cluster.Reachable) {key : ObjectKey} {s : Stage}
    (hs : w.cluster.stages.get? key = some s) (hlive : s.isBeingDeleted = false) {now : Timestamp}
    {a : Action} (ha : w.answer now key = some (.ok a)) :
    ∃ p registry, w.cluster.pipelineOf s = .ok p ∧
      w.cluster.registryUrl s.namespaceName = .ok registry ∧
      w.cluster.Delivered w.config s p registry (w.apply (.reconcile now key)).cluster := by
  obtain rfl : s.key = key := hw.coherent.stages key s hs
  have hfails : w.observed.FailsWith fun _ => True := ⟨fun _ _ => trivial, fun _ _ => trivial⟩
  obtain ⟨r, hr, hok⟩ := ObservedCluster.reconcile_of_ensures hfails hs
    (Stage.ensures_reconcile_ok w.config now hw.coherent.calm hs hlive)
  obtain rfl : r = .ok a := Option.some.inj (hr.symm.trans ha)
  obtain ⟨p, d, hpipeline, hregistry, hplan, hsame, hpredecessor, hcontents⟩ := hok a rfl
  -- Pending failures are nothing that a stage asks for.
  obtain ⟨hstage, hrole, hbindings, hstreams, hsupply, hjob⟩ :=
    delivered_of_aim hs hplan hsame hpredecessor hcontents
  exact ⟨p.pipeline, p.registry, hpipeline, hregistry, hstage, hrole, hbindings, hstreams, hsupply,
    hjob⟩

open Sample in
/-- The cluster refuses to make the target as one that is there, which it is not. All else is
delivered. -/
theorem success_delivers_with_refused_target :
    let w := ({} : World).run arrangingRefused
    let w' := w.apply (.reconcile .epoch (key "dev"))
    let s : Stage := Resource.stored (stage "dev" 0) "edp" (versionText 4)
    w'.cluster.namespaces.contains s.targetNamespace = false ∧
      w'.cluster.codebaseAt ⟨"edp", "mobile-dev-app-verified"⟩ = some "app" ∧
      ∃ p registry, w.cluster.pipelineOf s = .ok p ∧
        w.cluster.registryUrl s.namespaceName = .ok registry ∧
        w.cluster.Delivered w.config s p registry w'.cluster := by
  intro w w' s
  obtain ⟨hs, hok, hmissing, hpublished⟩ : w.cluster.stages.get? (key "dev") = some s ∧
      w.answer .epoch (key "dev") = some (.ok .awaitChange) ∧
        w'.cluster.namespaces.contains s.targetNamespace = false ∧
        w'.cluster.codebaseAt ⟨"edp", "mobile-dev-app-verified"⟩ = some "app" := by
    decide +kernel
  exact ⟨hmissing, hpublished, success_delivers (reachable_run _) hs rfl hok⟩

end World

end Conveyor
