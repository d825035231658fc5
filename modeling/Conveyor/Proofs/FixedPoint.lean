import Conveyor.Proofs.Exchanges
import Conveyor.Proofs.Reconciling
import Conveyor.Proofs.Scenario

/-!
Reconciling a stage again after it went well. What the first reconcile was to bring into being is
there (`Cluster.Furnished`), and each part of the second one finds that out: it ends well and takes
nothing, apart from the making of a target that is there already. All that is written is the status,
and of the status only the date is new.
-/

namespace Conveyor

open Session Cluster

variable {config : Config} {s t : Stage} {p : Plan} {c c' : Cluster}

/-- The place of a stage is there in the form that the platform is asked for. -/
def Places.hasTarget (config : Config) (s : Stage) (x : Places) : Bool :=
  if !config.managesNamespaces then x.namespaces.contains s.targetNamespace
  else if config.isKubernetes && config.usesSpaces then x.spaces.contains s.targetNamespace
  else if config.isKubernetes then x.namespaces.contains s.targetNamespace
  else x.projects.contains s.targetNamespace

theorem Places.hasTarget_supply {x : Places}
    (h : config.managesNamespaces = true ∨ x.namespaces.contains s.targetNamespace = true) :
    (x.supply config s).hasTarget config s = true := by
  unfold supply hasTarget
  repeat' split
  all_goals simp_all [Dict.contains, Dict.get?_insert_self]

/-- All that a plan asks for is there. -/
structure Cluster.Furnished (config : Config) (t : Stage) (p : Plan) (c : Cluster) : Prop where
  stored : c.stages.get? t.key = some t
  provisioned : t.Provisioned p.pipeline
  pipeline : c.pipelineOf t = .ok p.pipeline
  target : c.places.hasTarget config t = true
  role : (c.roles.get? ⟨t.targetNamespace, Access.viewDeploymentsRole⟩).isSome = true
  bindings : ∀ b ∈ Access.bindings t.namespaceName t.targetNamespace config,
    (c.roleBindings.get? (Access.bindingKey t.targetNamespace b)).isSome = true
  codebases : ∃ xs, c.codebases t p.pipeline = .ok xs ∧ ∀ x ∈ xs, x ∈ p.codebases
  registry : c.registryUrl t.namespaceName = .ok p.registry
  streams : ∀ x ∈ p.codebases, ∃ v, c.imageStreams.get? (p.streamKey t x) = some v ∧
    v.spec.codebase = x ∧
      v.spec.imageName = (Promotion.verifiedSpec p.registry t.namespaceName x).imageName
  job : ∃ j, c.releaseJobs.get? t.key = some j ∧ j.spec = (ReleaseJob.desired t p.pipeline).spec

/-! ### After a reconcile that went well -/

theorem Access.isSome_supply {α : Type} [Resource α] (a : α) (namespaceName : String)
    (o : Option α) : (supply a namespaceName o).isSome = true := by
  cases o <;> rfl

theorem Objects.isSome_seen {α : Type} {f : α → α} {os : Objects α} {k : ObjectKey} :
    (os.seen f k).isSome = (os.get? k).isSome := Option.isSome_map ..

theorem Promotion.supply_eq_some {namespaceName name : String} {spec : ImageStreamSpec}
    (o : Option ImageStream) :
    ∃ v, supply namespaceName name spec o = some v ∧ v.spec.codebase = spec.codebase ∧
      v.spec.imageName = spec.imageName := by
  cases o <;> exact ⟨_, rfl, rfl, rfl⟩

theorem ReleaseJob.supply_eq_some {namespaceName : String} {job : ReleaseJob}
    (o : Option ReleaseJob) :
    ∃ j, supply namespaceName job o = some j ∧ j.spec = job.spec := by
  cases o <;> exact ⟨_, rfl, rfl⟩

namespace Cluster

/-- A codebase that is published has its stream. -/
theorem stream_of_aim (h : c'.contents.imageStreams = (c.contents.aim config t p).imageStreams)
    {x : String} (hx : x ∈ p.codebases) :
    ∃ v, c'.imageStreams.get? (p.streamKey t x) = some v ∧ v.spec.codebase = x ∧
      v.spec.imageName = (Promotion.verifiedSpec p.registry t.namespaceName x).imageName := by
  have hseen : c'.contents.imageStreams (p.streamKey t x) =
      p.supplyStream t x (c.contents.imageStreams (p.streamKey t x)) :=
    (congrFun h _).trans (Table.alterAll_of_mem (p.consistent_streams t) hx _)
  obtain ⟨v, hv, hcodebase, himage⟩ := Promotion.supply_eq_some (c.contents.imageStreams _)
  obtain ⟨w, hw, rfl⟩ := Option.map_eq_some_iff.1 (hseen.trans hv)
  exact ⟨w, hw, hcodebase, himage⟩

/-- A stream that nothing is published in is as it was, its version aside. -/
theorem stream_of_aim_of_ne
    (h : c'.contents.imageStreams = (c.contents.aim config t p).imageStreams) {k : ObjectKey}
    (hk : ∀ x ∈ p.codebases, p.streamKey t x ≠ k) {y : ImageStream}
    (hy : c.imageStreams.get? k = some y) :
    ∃ z, c'.imageStreams.get? k = some z ∧ z.spec = y.spec := by
  have hseen : c'.contents.imageStreams k = c.contents.imageStreams k :=
    (congrFun h k).trans (Table.alterAll_of_not_mem hk _)
  obtain ⟨z, hz, hsame⟩ := Option.map_eq_some_iff.1 (hseen.trans (Objects.seen_of_stored hy))
  have hspec : (Resource.unversioned z).spec = (Resource.unversioned y).spec :=
    congrArg (·.spec) hsame
  exact ⟨z, hz, hspec⟩

theorem provisioned_of_aim (h : c'.contents.stages = (c.contents.aim config t p).stages)
    (hs : c.stages.get? t.key = some s) {t' : Stage} (ht : c'.stages.get? t.key = some t') :
    t'.Provisioned p.pipeline := by
  have hseen : some t'.content = some (s.content.settled p.pipeline) :=
    calc
      some t'.content = c'.contents.stages t.key := (Objects.seen_of_stored ht).symm
      _ = (c.contents.stages t.key).map (Stage.settled p.pipeline) :=
        (congrFun h t.key).trans (Table.alter_self ..)
      _ = some (s.content.settled p.pipeline) :=
        congrArg (Option.map (Stage.settled p.pipeline)) (Objects.seen_of_stored hs)
  exact Stage.provisioned_of_content (Option.some.inj hseen)

/-- The job is there where the contents say so. -/
theorem job_of_supplied {k : ObjectKey} {namespaceName : String} {job : ReleaseJob}
    {o : Option ReleaseJob}
    (h : c.contents.releaseJobs k = ReleaseJob.supply namespaceName job o) :
    ∃ j, c.releaseJobs.get? k = some j ∧ j.spec = job.spec := by
  obtain ⟨j, hj, hspec⟩ : ∃ j, ReleaseJob.supply namespaceName job o = some j ∧ j.spec = job.spec :=
    ReleaseJob.supply_eq_some o
  obtain ⟨i, hi, rfl⟩ := Option.map_eq_some_iff.1 (h.trans hj)
  exact ⟨i, hi, hspec⟩

theorem job_of_aim (h : c'.contents.releaseJobs = (c.contents.aim config t p).releaseJobs) :
    ∃ j, c'.releaseJobs.get? t.key = some j ∧ j.spec = (ReleaseJob.desired t p.pipeline).spec :=
  job_of_supplied ((congrFun h t.key).trans (Table.alter_self ..))

section

variable (hcontents : c'.contents = c.contents.aim config t p)
include hcontents

/-- Inputs may have become streams of the stage's own. Then they are about codebases that the stage
has published, and so the stage has no others to publish. -/
theorem codebases_of_aim (hkept : Kept config t c c') (hc : c.Holds t)
    (hp : c.codebases t p.pipeline = .ok p.codebases) :
    ∃ xs, c'.codebases t p.pipeline = .ok xs ∧ ∀ x ∈ xs, x ∈ p.codebases := by
  have hstreams : c'.contents.imageStreams = _ := congrArg (·.imageStreams) hcontents
  -- A stream at any key is now about a published codebase, or it is what it was.
  have hstream (k : ObjectKey) (y : ImageStream) (hy : c.imageStreams.get? k = some y) :
      ∃ z, c'.imageStreams.get? k = some z ∧
        (z.spec.codebase ∈ p.codebases ∨ z.spec = y.spec) := by
    by_cases hk : ∃ x ∈ p.codebases, p.streamKey t x = k
    · obtain ⟨x, hx, rfl⟩ := hk
      obtain ⟨v, hv, hcodebase, -⟩ := stream_of_aim hstreams hx
      exact ⟨v, hv, .inl (hcodebase.symm ▸ hx)⟩
    · have hk : ∀ x ∈ p.codebases, p.streamKey t x ≠ k := fun x hx he => hk ⟨x, hx, he⟩
      obtain ⟨z, hz, hspec⟩ := stream_of_aim_of_ne hstreams hk hy
      exact ⟨z, hz, .inr hspec⟩
  obtain ⟨ys, hys, hR⟩ := codebases_carry (R := fun _ y => y ∈ p.codebases ∧ True) hp
    (hkept.predecessor hc)
    (fun k y hy => by
      obtain ⟨z, hz, -⟩ := hstream k y hy
      exact ⟨z, hz⟩)
    fun input hinput y hy => by
      obtain ⟨z, hz, hcase⟩ := hstream _ y hy
      have hmem : z.spec.codebase ∈ p.codebases := by
        rcases hcase with hmem | hspec
        · exact hmem
        · exact hspec.symm ▸ mem_codebases hp hinput hy
      exact ⟨z, hz, hmem, hmem, trivial⟩
  exact ⟨ys, hys, ((List.forall₂_and_left ..).1 hR.flip).1⟩

/-- Where a reconcile has reached its aim, all is there. -/
theorem furnished_of_aim (hkept : Kept config t c c') (hp : c.Plans config t p)
    (hs : c.stages.get? t.key = some s) (hlike : s.Like t) (ht : c'.stages.get? t.key = some t) :
    c'.Furnished config t p where
  stored := ht
  provisioned := provisioned_of_aim (congrArg (·.stages) hcontents) hs ht
  pipeline := hkept.pipelineOf.trans hp.pipeline
  target := by
    have hplaces : c'.places = c.places.supply config t := congrArg (·.places) hcontents
    rw [hplaces]
    exact Places.hasTarget_supply hp.target
  role := by
    let key : ObjectKey := ⟨t.targetNamespace, Access.viewDeploymentsRole⟩
    have hseen : c'.contents.roles key = _ :=
      (congrArg (·.roles key) hcontents).trans (Table.alter_self ..)
    rw [← Objects.isSome_seen (f := Resource.unversioned)]
    exact (congrArg Option.isSome hseen).trans (Access.isSome_supply ..)
  bindings b hb := by
    let key : ObjectKey := Access.bindingKey t.targetNamespace b
    have hseen : c'.contents.roleBindings key = _ :=
      (congrArg (·.roleBindings key) hcontents).trans
        (Table.alterAll_of_mem (Access.consistent_bindings ..) hb _)
    rw [← Objects.isSome_seen (f := Resource.unversioned)]
    exact (congrArg Option.isSome hseen).trans (Access.isSome_supply ..)
  codebases := codebases_of_aim hcontents hkept ⟨s, hs, hlike⟩ hp.codebases
  registry := (hkept.registryUrl _).trans hp.registry
  streams x hx := stream_of_aim (congrArg (·.imageStreams) hcontents) hx
  job := job_of_aim (congrArg (·.releaseJobs) hcontents)

end

end Cluster

/-! ### The parts of another reconcile -/

/-- The making of a target that is there is refused. -/
def Target.refusals (config : Config) (t : Stage) : List Exchange :=
  if !config.managesNamespaces then []
  else if config.isKubernetes && config.usesSpaces then
    [⟨.createSpace t.targetNamespace t.namespaceName,
      some (.alreadyExists Kind.space.name t.targetNamespace)⟩]
  else if config.isKubernetes then
    [⟨.createNamespace t.targetNamespace,
      some (.alreadyExists Kind.namespaceKind.name t.targetNamespace)⟩]
  else
    [⟨.createProject t.targetNamespace t.spec.description,
      some (.alreadyExists Kind.projectRequest.name t.targetNamespace)⟩]

namespace Target

theorem takes_create {kind name : String} {q : Session Unit} {ws : List Exchange} {e : Error}
    (h : q.Takes c ws (.error e) c') (he : e.isAlreadyExists = true) :
    (create kind name q).Takes c ws (.ok ()) c' := by
  have hresult : (if e.isAlreadyExists then .ok () else .error (.downstream "create" kind name e) :
      Except Error Unit) = .ok () := if_pos he
  have htolerated : (create kind name q).Takes c (ws ++ []) _ c' := Takes.andThen h (takes_done _)
  rwa [List.append_nil, hresult] at htolerated

theorem takes_placing (hc : c.failures = []) (h : c.places.hasTarget config t = true) :
    (placing config t).Takes c (refusals config t) (.ok ()) c := by
  unfold Places.hasTarget at h
  unfold placing refusals
  by_cases hm : (!config.managesNamespaces) = true
  · rw [if_pos hm] at h ⊢
    rw [if_pos hm]
    refine takes_request_bind (r := .namespaceExists t.targetNamespace) rfl hc rfl ?_
    exact takes_if_pos h (takes_pure ())
  rw [if_neg hm] at h ⊢
  rw [if_neg hm]
  by_cases hspaces : (config.isKubernetes && config.usesSpaces) = true
  · rw [if_pos hspaces] at h ⊢
    rw [if_pos hspaces]
    have hserve : c.serve (.createSpace t.targetNamespace t.namespaceName) =
        (.error (.alreadyExists Kind.space.name t.targetNamespace), c) := if_pos h
    exact takes_create (takes_request hc rfl hserve) rfl
  rw [if_neg hspaces] at h ⊢
  rw [if_neg hspaces]
  by_cases hk : config.isKubernetes = true
  · rw [if_pos hk] at h ⊢
    rw [if_pos hk]
    have hserve : c.serve (.createNamespace t.targetNamespace) =
        (.error (.alreadyExists Kind.namespaceKind.name t.targetNamespace), c) := if_pos h
    exact takes_create (takes_request hc rfl hserve) rfl
  · rw [if_neg hk] at h ⊢
    rw [if_neg hk]
    have hserve : c.serve (.createProject t.targetNamespace t.spec.description) =
        (.error (.alreadyExists Kind.projectRequest.name t.targetNamespace), c) := if_pos h
    exact takes_create (takes_request hc rfl hserve) rfl

end Target

/-- Where all of it is there, nothing is made. -/
theorem Access.takes_configure (hc : c.failures = [])
    (role : (c.roles.get? ⟨t.targetNamespace, viewDeploymentsRole⟩).isSome = true)
    (bindings : ∀ b ∈ bindings t.namespaceName t.targetNamespace config,
      (c.roleBindings.get? (bindingKey t.targetNamespace b)).isSome = true) :
    (configure config t).Takes c [] (.ok ()) c := by
  have hrole : (ensureRole (deploymentsRole t.targetNamespace)).Takes c [] (.ok ()) c :=
    takes_request_bind (r := .getRole t.targetNamespace viewDeploymentsRole) rfl hc rfl
      (takes_if_pos role (takes_pure ()))
  refine hrole.bind (takes_each fun b hb => ?_)
  obtain ⟨name, hmetadata⟩ := metadata_of_mem_bindings hb
  have hnamespace : b.metadata.namespaceOrEmpty = t.targetNamespace := by rw [hmetadata]; rfl
  have hname : b.metadata.nameOrStem = b.metadata.nameOrEmpty := by rw [hmetadata]; rfl
  unfold ensureBinding
  rw [hnamespace, hname]
  exact takes_request_bind (r := .getRoleBinding t.targetNamespace b.metadata.nameOrEmpty) rfl hc
    rfl (takes_if_pos (bindings b hb) (takes_pure ()))

namespace Promotion

theorem takes_putVerified {namespaceName name : String} {spec : ImageStreamSpec} {v : ImageStream}
    (hc : c.failures = []) (hv : c.imageStreams.get? ⟨namespaceName, name⟩ = some v)
    (hcodebase : v.spec.codebase = spec.codebase) (himage : v.spec.imageName = spec.imageName) :
    (putVerified namespaceName name spec).Takes c [] (.ok ()) c :=
  takes_request_bind (r := .getImageStream namespaceName name) rfl hc (congrArg Except.ok hv)
    (takes_if_pos ⟨hcodebase, himage⟩ (takes_pure ()))

theorem takes_promote (hc : c.failures = []) (h : c.Furnished config t p) :
    (promote t).Takes c [] (.ok ()) c := by
  obtain ⟨xs, hxs, hsub⟩ := h.codebases
  obtain ⟨ds, hds, rfl⟩ := codebases_eq_ok.1 hxs
  refine (reads_pipelineOf t).takes_bind hc h.pipeline ?_
  refine (reads_consumed t p.pipeline).takes_bind hc hds ?_
  refine (reads_registryUrl t.namespaceName).takes_bind hc h.registry (takes_each fun d hd => ?_)
  obtain ⟨v, hv, hcodebase, himage⟩ := h.streams d.codebase (hsub _ (List.mem_map_of_mem hd))
  exact takes_putVerified hc hv hcodebase himage

end Promotion

namespace ReleaseJob

/-- A job that is there is compared with what it has to be. None of this can be made to fail. -/
theorem takes_put_of_stored {q : Pipeline} {ws : List Exchange} {r : Except Error Unit}
    (hc : ∀ o ∈ c.failures, o ∈ failable) (hq : c.pipelineOf s = .ok q) {j : ReleaseJob}
    (hj : c.releaseJobs.get? s.key = some j)
    (hrest : Takes (if j.spec = (desired s q).spec then pure () else
      requestFor "update" Kind.releaseJob.name s.name
        (.replaceReleaseJob s.namespaceName { j with spec := (desired s q).spec })) c ws r c') :
    (put s).Takes c ws r c' := by
  have hpipeline : (Promotion.pipelineOf s).Takes c [] (.ok q) c := by
    rw [← hq]
    refine (Promotion.reads_pipelineOf s).takes_of_asks ?_
    refine asks_request_bind (fun h => absurd (hc .getPipeline h) (by decide)) fun found => ?_
    cases found <;> trivial
  have hfound : (request (.getReleaseJob s.namespaceName s.name)).Takes c [] (.ok (some j)) c := by
    rw [← hj]
    refine Reads.takes_of_asks (reads_request (r := .getReleaseJob s.namespaceName s.name) rfl) ?_
    exact asks_request fun h => absurd (hc .getReleaseJob h) (by decide)
  exact hpipeline.bind (hfound.bind hrest)

theorem takes_put (hc : c.failures = []) (h : c.Furnished config t p) :
    (put t).Takes c [] (.ok ()) c := by
  obtain ⟨j, hj, hspec⟩ := h.job
  have hnone : ∀ o ∈ c.failures, o ∈ failable := by
    rw [hc]
    exact List.forall_mem_nil _
  exact takes_put_of_stored hnone h.pipeline hj (takes_if_pos hspec (takes_pure ()))

end ReleaseJob

namespace Stage

theorem takes_ensureFinalizer (h : t.hasFinalizer = true) :
    ∃ a, t.ensureFinalizer.Takes c [] (.ok a) c := by
  have hadd : Finalizers.add? t.metadata.finalizers finalizer = none :=
    add?_of_mem (by simpa [hasFinalizer, finalizers] using h)
  unfold ensureFinalizer
  rw [hadd]
  exact ⟨_, takes_pure _⟩

theorem takes_ensureOwnership (hc : c.failures = []) (h : c.Furnished config t p) :
    t.ensureOwnership.Takes c [] (.ok ()) c :=
  (Promotion.reads_pipelineOf t).takes_bind hc h.pipeline
    (takes_if_pos h.provisioned.owner (takes_pure ()))

theorem takes_provisionOwned (hc : c.failures = []) (h : c.Furnished config t p) :
    (t.provisionOwned config).Takes c (Target.refusals config t) (.ok ()) c := by
  have hrest : (Access.configure config t >>= fun _ => Promotion.promote t >>= fun _ =>
      ReleaseJob.put t).Takes c [] (.ok ()) c :=
    (Access.takes_configure hc h.role h.bindings).bind
      ((Promotion.takes_promote hc h).bind (ReleaseJob.takes_put hc h))
  have hprovision : (provision config t).Takes c (Target.refusals config t ++ []) (.ok ()) c := by
    rw [Target.provision_eq]
    exact (Target.takes_placing hc h.target).bind hrest
  rw [List.append_nil] at hprovision
  have howned : (t.provisionOwned config).Takes c ([] ++ Target.refusals config t) (.ok ()) c :=
    (takes_ensureOwnership hc h).bind hprovision
  exact howned

/-- The report of success dates the status. -/
theorem takes_report (hc : c.failures = []) (h : c.Furnished config t p) (now : Timestamp) :
    ∃ status, t.status = some status ∧
      let dated := { status with lastTimeUpdated := some now }
      (t.report now (.ok ())).Takes c
        [⟨.patchStageStatus t.namespaceName t.name dated, none⟩] (.ok .awaitChange)
        (c.writeStage t.key { t with status := some dated } .status) := by
  obtain ⟨status, hstatus, hdated⟩ := h.provisioned.status_again now
  refine ⟨status, hstatus, ?_⟩
  intro dated
  have hserve : c.patchStatus t.key dated =
      (.ok (), c.writeStage t.key { t with status := some dated } .status) := by
    have hdate : dated.lastTimeUpdated = some now := rfl
    exact patchStatus_of_dated h.stored hdate
  have hwrite : (t.writeStatus dated).Takes c _ (.ok ()) _ := takes_request hc rfl hserve
  simp only [report, hdated]
  exact hwrite.bind (takes_publish_bind (takes_pure _))

/-- A reconcile of a stage for which all is there. -/
theorem takes_reconcile (hc : c.failures = []) (h : c.Furnished config t p)
    (hlive : t.isBeingDeleted = false) (now : Timestamp) :
    ∃ status, t.status = some status ∧
      let dated := { status with lastTimeUpdated := some now }
      (t.reconcile config now).Takes c
        (Target.refusals config t ++ [⟨.patchStageStatus t.namespaceName t.name dated, none⟩])
        (.ok .awaitChange) (c.writeStage t.key { t with status := some dated } .status) := by
  obtain ⟨added, hfinalizer⟩ := takes_ensureFinalizer (c := c) h.provisioned.finalizer
  obtain ⟨status, hstatus, hreport⟩ := takes_report hc h now
  refine ⟨status, hstatus, ?_⟩
  rw [reconcile, if_neg (by rw [hlive]; decide)]
  have hattempt := (takes_provisionOwned hc h).attempt
  exact hfinalizer.bind (hattempt.bind hreport)

end Stage

namespace Cluster

/-- Where a reconcile without failures went well, all is there. From here on everything is told by
the newly stored copy. -/
theorem furnished_of_effect {S : Prop} {a : Action} (hs : c.stages.get? s.key = some s)
    (heffect : Effect NoFailure config s S (c.Plans config s ·) (fun p d => d.aim config s p) c
      (.ok a) c') :
    ∃ p t, c.Plans config s p ∧ c'.contents = c.contents.aim config s p ∧ t.Like s ∧
      c'.Furnished config t p := by
  have hno : ¬ ∃ e : Error, False := by simp
  obtain ⟨p, hp, hcontents⟩ := (heffect.success a rfl).resolve_left hno
  obtain ⟨t, ht, hlike⟩ := heffect.kept.stored ⟨s, hs, .refl s⟩
  refine ⟨p, t, hp, hcontents, hlike, ?_⟩
  rw [← hlike.key] at hs ht
  rw [← hlike.aim] at hcontents
  exact furnished_of_aim hcontents (heffect.kept.like hlike.symm) ((plans_like hlike p).2 hp) hs
    hlike.symm ht

theorem furnished_of_reconcile (hc : c.Coherent) (hcalm : c.failures = [])
    (hs : c.stages.get? s.key = some s) (hlive : s.isBeingDeleted = false)
    (hnames : c.NamesPipeline s) {now : Timestamp} {a : Action}
    (hrun : (s.reconcile config now).run client c = (.ok a, c')) :
    c'.failures = [] ∧ ∃ p t, t.Like s ∧ c'.Furnished config t p := by
  have hensures : (s.reconcile config now).Ensures NoFailure c (Effect _ config s _ _ _ c) :=
    Stage.ensures_reconcile config now hc hs hlive hnames
  obtain ⟨heffect, hcalm'⟩ := run_of_ensures hcalm hensures
  rw [hrun] at heffect hcalm'
  obtain ⟨p, t, -, -, hlike, hfurnished⟩ := furnished_of_effect hs heffect
  exact ⟨hcalm', p, t, hlike, hfurnished⟩

/-- **A reconcile that went well leaves nothing to do.** The stored copy of a live stage is
reconciled on a cluster in which no failure is pending, and then its newly stored copy is. The
second reconcile goes well too. All that the cluster accepts of it is the status, and it refuses to
make the target again. Every object stays as it is, its version included; of the stage only the date
of the status is another one. -/
theorem reconcile_again (hc : c.Reachable) (hcalm : c.failures = []) {key : ObjectKey}
    (hs : c.stages.get? key = some s) (hlive : s.isBeingDeleted = false)
    (hnamed : ∀ p, c.pipelineOf s = .ok p → p.metadata.name.isSome = true)
    {now : Timestamp} {a : Action}
    (hfirst : (s.reconcile config now).run client c = (.ok a, c')) (now' : Timestamp) :
    ∃ t status, c'.stages.get? key = some t ∧ t.status = some status ∧
      let dated := { status with lastTimeUpdated := some now' }
      (t.reconcile config now').run client c' =
        (.ok .awaitChange, c'.writeStage key { t with status := some dated } .status) ∧
      (t.reconcile config now').writes c' =
        Target.refusals config t ++ [⟨.patchStageStatus t.namespaceName t.name dated, none⟩] := by
  obtain rfl : s.key = key := hc.coherent.stages key s hs
  obtain ⟨hcalm', p, t, hlike, hfurnished⟩ := furnished_of_reconcile hc.coherent hcalm hs hlive
    (hc.coherent.namesPipeline hnamed) hfirst
  obtain ⟨status, hstatus, hagain⟩ :=
    Stage.takes_reconcile hcalm' hfurnished (hlike.isBeingDeleted.trans hlive) now'
  rw [hlike.key] at hagain
  exact ⟨t, status, hlike.key ▸ hfurnished.stored, hstatus, hagain.run, hagain.writes⟩

open Sample in
/-- The first reconcile takes an input for a stream of the stage's own, and the second one is
content with it. -/
theorem reconcile_again_with_crossed_inputs :
    let c := (({} : World).run arrangingCrossed).cluster
    let s : Stage := Resource.stored (stage "dev" 0) "edp" (versionText 6)
    let c' := ((s.reconcile {} .epoch).run client c).2
    ∀ now', ∃ t status, c'.stages.get? (key "dev") = some t ∧ t.status = some status ∧
      let dated := { status with lastTimeUpdated := some now' }
      (t.reconcile {} now').run client c' =
        (.ok .awaitChange, c'.writeStage (key "dev") { t with status := some dated } .status) ∧
      (t.reconcile {} now').writes c' =
        Target.refusals {} t ++ [⟨.patchStageStatus t.namespaceName t.name dated, none⟩] := by
  intro c s c'
  let p : Pipeline := Resource.stored
    { pipeline with spec.inputStreams := ["app-main", "app-release", "mobile-dev-app-verified"] }
    "edp" (versionText 1)
  have hc : c.Reachable := World.reachable_run _
  have hs : c.stages.get? (key "dev") = some s := by decide +kernel
  have hp : c.pipelineOf s = .ok p := by decide +kernel
  have hnamed (q : Pipeline) (hq : c.pipelineOf s = .ok q) : q.metadata.name.isSome = true := by
    rw [hp] at hq
    cases hq
    rfl
  have hok : ((s.reconcile {} .epoch).run client c).1 = .ok .awaitChange := by decide +kernel
  have hfirst : (s.reconcile {} .epoch).run client c = (.ok .awaitChange, c') := Prod.ext hok rfl
  exact fun now' => reconcile_again hc rfl hs rfl hnamed hfirst now'

end Cluster

end Conveyor
