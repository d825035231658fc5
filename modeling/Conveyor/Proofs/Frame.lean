import Conveyor.Proofs.Changes
import Conveyor.Proofs.Targets

/-!
The frame of a reconcile: what it can change of a cluster, whether it comes back with success or
not, and whatever was stored before.

The frame has two halves. What a request does to stages, access and places can be read off the
request, so that half is proved request by request. Which streams and jobs are written, and with
what, depends on what was read, so that half goes along the session.
-/

namespace Conveyor

open Session Cluster

variable {config : Config} {s : Stage} {F : Error → Prop} {c c' c'' : Cluster} {now : Timestamp}

/-- What a reconcile of the live stage `s` may change beside streams and jobs. -/
structure Upkeep (config : Config) (s : Stage) (c c' : Cluster) : Prop where
  stages : c.stages.ChangesBy s.Attended c'.stages
  pipelines : c'.pipelines = c.pipelines
  components : c'.components = c.components
  roles : c.roles.ChangesBy s.GainsRole c'.roles
  roleBindings : c.roleBindings.ChangesBy (s.GainsBinding config) c'.roleBindings
  namespaces : c.namespaces.ChangesBy s.GainsPlace c'.namespaces
  spaces : c.spaces.ChangesBy s.GainsPlace c'.spaces
  projects : c.projects.ChangesBy s.GainsPlace c'.projects

/-- What a reconcile of the live stage `s` may change. -/
structure LiveFrame (config : Config) (s : Stage) (c c' : Cluster) : Prop
    extends Upkeep config s c c' where
  imageStreams : c.imageStreams.ChangesBy (c.Republishes s) c'.imageStreams
  releaseJobs : c.releaseJobs.ChangesBy s.Reissues c'.releaseJobs

/-- What a reconcile of the stage `s` under deletion may change beside streams. -/
structure Clearance (s : Stage) (c c' : Cluster) : Prop where
  stages : c.stages.ChangesBy s.Released c'.stages
  pipelines : c'.pipelines = c.pipelines
  components : c'.components = c.components
  releaseJobs : c'.releaseJobs = c.releaseJobs
  roles : c'.roles = c.roles
  roleBindings : c'.roleBindings = c.roleBindings
  namespaces : c.namespaces.ChangesBy s.LosesPlace c'.namespaces
  spaces : c'.spaces = c.spaces
  projects : c.projects.ChangesBy s.LosesPlace c'.projects

/-- What a reconcile of the stage `s` under deletion may change. -/
structure DeletionFrame (s : Stage) (c c' : Cluster) : Prop extends Clearance s c c' where
  imageStreams : c.imageStreams.ChangesBy (c.RetiresFrom s) c'.imageStreams

/-! ### Requests of a live stage -/

/-- A reconcile of the live stage `s` makes no other requests. What is put into streams and jobs is
left open. -/
def Request.Tends (config : Config) (s : Stage) : Request → Prop
  | patchStageStatus n m _ => (⟨n, m⟩ : ObjectKey) = s.key
  | patchStageFinalizers n m _ finalizers =>
    (⟨n, m⟩ : ObjectKey) = s.key ∧ Stage.finalizer ∈ finalizers
  | patchStageOwnership n m _ labels =>
    (⟨n, m⟩ : ObjectKey) = s.key ∧ ∃ p, labels = .singleton Stage.pipelineLabelKey p
  | createRole n role => n = s.targetNamespace ∧ role = Access.deploymentsRole s.targetNamespace
  | createRoleBinding n b =>
    n = s.targetNamespace ∧ b ∈ Access.bindings s.namespaceName s.targetNamespace config
  | createNamespace n | createSpace n _ | createProject n _ => n = s.targetNamespace
  | deleteNamespace _ | deleteProject _ => False
  | _ => True

open Request (Tends)

section

variable {r : Request}

theorem Request.tends_of_isRead (h : r.isRead = true) : r.Tends config s := by
  cases r <;> trivial

theorem Request.tends_of_within (h : r.Within [.imageStreams, .releaseJobs]) :
    r.Tends config s := by
  cases r <;> trivial

theorem Upkeep.refl (config : Config) (s : Stage) (c : Cluster) : Upkeep config s c c where
  stages := .refl _ _
  pipelines := rfl
  components := rfl
  roles := .refl _ _
  roleBindings := .refl _ _
  namespaces := .refl _ _
  spaces := .refl _ _
  projects := .refl _ _

theorem Upkeep.trans (h : Upkeep config s c c') (k : Upkeep config s c' c'') :
    Upkeep config s c c'' where
  stages := h.stages.trans (fun _ _ _ _ => .trans) k.stages
  pipelines := k.pipelines.trans h.pipelines
  components := k.components.trans h.components
  roles := h.roles.trans_of_new (fun _ _ _ ⟨_, hx, _, hy⟩ => ⟨hx, hy ▸ rfl⟩) k.roles
  roleBindings := h.roleBindings.trans_of_new
    (fun _ _ _ ⟨_, _, _, hx, _, hy⟩ => ⟨hx, hy ▸ rfl⟩) k.roleBindings
  namespaces := h.namespaces.trans_of_new (fun _ _ _ h => h.2) k.namespaces
  spaces := h.spaces.trans_of_new (fun _ _ _ h => h.2) k.spaces
  projects := h.projects.trans_of_new (fun _ _ _ h => h.2) k.projects

/-- Of the stages it is the reconciled one that is patched, in what a reconcile attends to. -/
theorem Cluster.stages_serve_tended (h : r.Tends config s) (c : Cluster) :
    c.stages.ChangesBy s.Attended (c.serve r).2.stages := by
  have hwritten {t u : Stage} (ht : c.stages.get? s.key = some t) (htu : t.Attends u) :
      c.stages.ChangesBy s.Attended (c.stages.insert s.key u) :=
    Dict.changesBy_insert ⟨rfl, t, u, ht, rfl, htu⟩
  cases r with
  | patchStageStatus n m status =>
      have hkey : (⟨n, m⟩ : ObjectKey) = s.key := h
      simp only [serve, patchStatus, hkey]
      split
      · exact .refl _ _
      · next t ht =>
        split
        · exact .refl _ _
        · exact hwritten ht ⟨rfl, fun _ _ => rfl, rfl⟩
  | patchStageFinalizers n m version finalizers =>
      obtain ⟨hkey, hmem⟩ := h
      have hne : finalizers.isEmpty = false := List.isEmpty_eq_false_iff.2 (List.ne_nil_of_mem hmem)
      simp only [serve, patchFinalizers, hkey, hne, Bool.false_and, Bool.false_eq_true, if_false]
      split
      · exact .refl _ _
      · next t ht =>
        split
        · exact hwritten ht ⟨rfl, fun _ _ => rfl, rfl⟩
        · exact .refl _ _
  | patchStageOwnership n m owners labels =>
      obtain ⟨hkey, p, rfl⟩ := h
      simp only [serve, patchOwnership, hkey]
      split
      · exact .refl _ _
      · next t ht => exact hwritten ht ⟨rfl, fun l hl => Dict.get?_insert_of_ne _ _ hl, rfl⟩
  | _ => exact .of_eq (stages_serve (by simp [Request.part]) c)

theorem Cluster.roles_serve_tended (h : r.Tends config s) (c : Cluster) :
    c.roles.ChangesBy s.GainsRole (c.serve r).2.roles := by
  cases r with
  | createRole n role =>
      obtain ⟨rfl, rfl⟩ := h
      exact changesBy_create roleShelf rfl (fun _ => rfl) ⟨rfl, rfl, _, rfl⟩
  | createRoleBinding n b =>
      rcases create_snd roleBindingShelf n b c with hafter | hafter
      all_goals exact .of_eq (congrArg Cluster.roles hafter :)
  | _ => exact .of_eq (access_serve (by simp [Request.part]) c).1

theorem Cluster.roleBindings_serve_tended (h : r.Tends config s) (c : Cluster) :
    c.roleBindings.ChangesBy (s.GainsBinding config) (c.serve r).2.roleBindings := by
  cases r with
  | createRoleBinding n b =>
      obtain ⟨rfl, hb⟩ := h
      exact changesBy_create roleBindingShelf rfl (fun _ => rfl) ⟨b, hb, rfl, rfl, _, rfl⟩
  | createRole n role =>
      rcases create_snd roleShelf n role c with hafter | hafter
      all_goals exact .of_eq (congrArg Cluster.roleBindings hafter :)
  | _ => exact .of_eq (access_serve (by simp [Request.part]) c).2

/-- Only the target is made. -/
theorem Cluster.places_serve_tended (h : r.Tends config s) (c : Cluster) :
    c.namespaces.ChangesBy s.GainsPlace (c.serve r).2.namespaces ∧
      c.spaces.ChangesBy s.GainsPlace (c.serve r).2.spaces ∧
      c.projects.ChangesBy s.GainsPlace (c.serve r).2.projects := by
  have hsame {c' : Cluster} (hc' : c'.places = c.places) :
      c.namespaces.ChangesBy s.GainsPlace c'.namespaces ∧
        c.spaces.ChangesBy s.GainsPlace c'.spaces ∧
        c.projects.ChangesBy s.GainsPlace c'.projects :=
    ⟨.of_eq (congrArg (·.namespaces) hc'), .of_eq (congrArg (·.spaces) hc'),
      .of_eq (congrArg (·.projects) hc')⟩
  cases r with
  | createNamespace n =>
      obtain rfl : n = s.targetNamespace := h
      simp only [serve, createNamespace]
      split
      · exact hsame rfl
      · exact ⟨s.changesBy_insert_name _, .refl _ _, .refl _ _⟩
  | createSpace n account =>
      obtain rfl : n = s.targetNamespace := h
      simp only [serve, createSpace]
      split
      · exact hsame rfl
      · next hnone =>
        exact ⟨s.changesBy_insert_name _,
          Stage.changesBy_insert_place (Bool.eq_false_iff.2 hnone), .refl _ _⟩
  | createProject n description =>
      obtain rfl : n = s.targetNamespace := h
      simp only [serve, createProject]
      split
      · exact hsame rfl
      · exact ⟨s.changesBy_insert_name _, .refl _ _, s.changesBy_insert_name _⟩
  | deleteNamespace | deleteProject => exact h.elim
  | _ => exact hsame (places_serve (by simp [Request.part]) (by simp [Request.part]) c)

theorem upkeep_serve (h : r.Tends config s) (c : Cluster) :
    Upkeep config s c (c.serve r).2 where
  stages := stages_serve_tended h c
  pipelines := pipelines_serve r c
  components := components_serve r c
  roles := roles_serve_tended h c
  roleBindings := roleBindings_serve_tended h c
  namespaces := (places_serve_tended h c).1
  spaces := (places_serve_tended h c).2.1
  projects := (places_serve_tended h c).2.2

end

/-- A reconcile of a live stage asks for upkeep only. -/
theorem Stage.asks_reconcile_tends (hlive : s.isBeingDeleted = false) :
    (s.reconcile config now).Asks (Tends config s) := by
  have hread (r : Request) (h : r.isRead = true) : r.Tends config s := Request.tends_of_isRead h
  have hrest (r : Request) (h : r.Within [.imageStreams, .releaseJobs]) : r.Tends config s :=
    Request.tends_of_within h
  refine asks_reconcile_live hlive ?finalizer ?ownership ?placing ?access ?promote ?put
    fun r => ?report
  case finalizer => exact asks_ensureFinalizer_of fun _ hmem => ⟨rfl, hmem⟩
  case ownership => exact asks_ensureOwnership_of hread fun _ p => ⟨rfl, p, rfl⟩
  case placing =>
    exact Target.asks_placing_of trivial (fun _ _ => rfl) (fun _ => rfl) fun _ _ => rfl
  case access =>
    refine Asks.bind ?_ fun _ => asks_each_of_mem fun b hb => ?_
    · exact asks_request_bind trivial fun _ =>
        asks_ite (fun _ => trivial) fun _ => asks_requestFor ⟨rfl, rfl⟩
    · obtain ⟨name, hmetadata⟩ := Access.metadata_of_mem_bindings hb
      have hplace : b.metadata.namespaceOrEmpty = s.targetNamespace := by rw [hmetadata]; rfl
      exact asks_request_bind trivial fun _ =>
        asks_ite (fun _ => trivial) fun _ => asks_requestFor ⟨hplace, hb⟩
  case promote => exact ((Promotion.asks_promote s).wider (by simp)).mono hrest
  case put => exact ((ReleaseJob.asks_put s).wider (by simp)).mono hrest
  case report => exact asks_report_of (fun _ => rfl) r

/-! ### Streams and jobs of a live stage -/

/-- What the publication and the job keep, and all requests for other things, a reconcile keeps. -/
theorem Stage.ensures_reconcile_keep {I : Cluster → Prop} (hlive : s.isBeingDeleted = false)
    (plain : ∀ r c, Request.Within [.stages, .access, .places] r → I c → I (c.serve r).2)
    (promote : ∀ c, I c → (Promotion.promote s).Ensures F c fun _ c' => I c')
    (put : ∀ c, I c → (ReleaseJob.put s).Ensures F c fun _ c' => I c') (hc : I c) :
    (s.reconcile config now).Ensures F c fun _ c' => I c' := by
  have hplain {α : Type} {p : Session α} {ps : List Part} (h : p.Asks (Request.Within ps))
      (hps : ps ⊆ [.stages, .access, .places]) {c : Cluster} (hc : I c) :
      p.Ensures F c fun _ c' => I c' := (h.wider hps).ensures plain hc
  have hprovision {c : Cluster} (hc : I c) : (provision config s).Ensures F c fun _ c' => I c' := by
    rw [Target.provision_eq]
    refine (hplain (Target.asks_placing config s) (by simp) hc).bind (fun _ c h => ?_)
      fun _ _ h => h
    refine (hplain (Access.asks_configure config s) (by simp) h).bind (fun _ c h => ?_)
      fun _ _ h => h
    exact (promote c h).bind (fun _ c h => put c h) fun _ _ h => h
  rw [reconcile, if_neg (by rw [hlive]; decide)]
  refine (hplain (s.asks_ensureFinalizer.mono fun _ hr => hr.1) (by simp) hc).bind
    (fun _ c h => ?_) fun _ _ h => h
  have howned : (s.provisionOwned config).Ensures F c fun _ c' => I c' :=
    (hplain (s.asks_ensureOwnership.mono fun _ hr => hr.1) (by simp) h).bind
      (fun _ c h => hprovision h) fun _ _ h => h
  refine ensures_attempt_bind.2 (howned.mono fun r c h => ?_)
  exact hplain ((s.asks_report now r).mono fun _ hr => hr.1) (by simp) h

theorem Promotion.ensures_promote_republishes (hc : c.Coherent) :
    (promote s).Ensures F c fun _ c' =>
      c.imageStreams.ChangesBy (c.Republishes s) c'.imageStreams := by
  refine (ensures_promote_of_rounds (I := fun p c' => c.Publishes s p ∧
    c.imageStreams.ChangesBy (c.Republishes s) c'.imageStreams) hc
    (fun p hp => ⟨hp, .refl _ _⟩) ?_).mono ?_
  · rintro p x hx c' hc' ⟨hp, hchanges⟩
    have hfeeds := (mem_codebases_iff hp.codebases).1 hx
    refine (ensures_putVerified_repoints hc').mono fun _ c'' hstep => ⟨hp, ?_⟩
    refine hchanges.trans (fun _ _ _ _ => .trans) fun k => (hstep k).imp_right ?_
    rintro ⟨rfl, t, ht, -, hrepoints⟩
    exact ⟨⟨_, x, hp.pipeline, hfeeds, rfl⟩, t, ht, hrepoints⟩
  · rintro _ c' (rfl | ⟨p, -, -, hchanges⟩)
    · exact .refl _ _
    · exact hchanges

theorem ReleaseJob.ensures_put_changes (hc : c.Coherent) :
    (put s).Ensures F c fun _ c' => c.releaseJobs.ChangesBy s.Reissues c'.releaseJobs := by
  unfold put
  refine (Promotion.reads_pipelineOf s).ensures_bind (fun p _ => ?_) fun e _ => .refl _ _
  refine ensures_request_bind.2 ⟨fun e _ => .refl _ _, ?_⟩
  simp only [serve]
  cases h : c.releaseJobs.get? ⟨s.namespaceName, s.name⟩ with
  | none =>
      refine ensures_requestFor.2 ⟨fun e _ => .refl _ _, ?_⟩
      refine changesBy_create releaseJobShelf rfl (fun _ => rfl) ⟨rfl, _, rfl, fun j hj => ?_⟩
      cases hj
  | some j =>
      refine ensures_ite (fun _ k => .inl rfl) fun _ => ?_
      let j' : ReleaseJob := { j with spec := (desired s p).spec }
      have hkey : keyIn s.namespaceName j' = s.key := (hc.releaseJobs.keyIn_eq h :)
      refine ensures_requestFor.2 ⟨fun e _ => .refl _ _, ?_⟩
      refine changesBy_replace releaseJobShelf rfl (fun _ => rfl) ⟨hkey, _, rfl, fun i hi => ?_⟩
      rw [hkey] at hi
      obtain rfl := Option.some.inj (h.symm.trans hi)
      exact rfl

/-- Where the streams have got to in `c'` when the reconcile of `s` has begun with `c`. What feeds
the pipeline by now has fed it from the start. -/
structure Publishing (s : Stage) (c c' : Cluster) : Prop where
  coherent : c'.Coherent
  pipelines : c'.pipelines = c.pipelines
  feeds : ∀ p x, c.pipelineOf s = .ok p → c'.Feeds s.namespaceName p x →
    c.Feeds s.namespaceName p x
  streams : c.imageStreams.ChangesBy (c.Republishes s) c'.imageStreams

namespace Publishing

theorem start (s : Stage) (hc : c.Coherent) : Publishing s c c where
  coherent := hc
  pipelines := rfl
  feeds _ _ _ := id
  streams := .refl _ _

theorem pipelineOf (h : Publishing s c c') : c'.pipelineOf s = c.pipelineOf s := by
  rw [Cluster.pipelineOf, Cluster.pipelineOf, h.pipelines]

theorem of_same (h : Publishing s c c') (hc : c''.Coherent)
    (hpipelines : c''.pipelines = c'.pipelines) (hsame : c''.imageStreams = c'.imageStreams) :
    Publishing s c c'' where
  coherent := hc
  pipelines := hpipelines.trans h.pipelines
  feeds p x hp := by
    rintro ⟨input, hinput, hx⟩
    exact h.feeds p x hp ⟨input, hinput, codebaseAt_congr hsame _ ▸ hx⟩
  streams := hsame ▸ h.streams

theorem promote (h : Publishing s c c') :
    (Promotion.promote s).Ensures F c' fun _ c'' => Publishing s c c'' := by
  refine ((h.coherent.ensures _).and ((ensures_pipelines _).and
    ((Promotion.ensures_promote_streams h.coherent).and
      (Promotion.ensures_promote_republishes h.coherent)))).mono ?_
  rintro _ c'' ⟨hc, hpipelines, hpromotes, hrepublishes⟩
  refine ⟨hc, hpipelines.trans h.pipelines, fun p x hp hx => ?_, ?_⟩
  · exact h.feeds p x hp (hpromotes.feeds (h.pipelineOf ▸ hp) hx)
  · refine h.streams.trans (fun _ _ _ _ => .trans) (hrepublishes.mono ?_)
    rintro k _ _ ⟨⟨p, x, hp, hx, rfl⟩, hput⟩
    rw [h.pipelineOf] at hp
    exact ⟨⟨p, x, hp, h.feeds p x hp hx, rfl⟩, hput⟩

end Publishing

namespace Stage

/-- No stream of another codebase, of another stage or of another name is written. -/
theorem ensures_reconcile_republishes (hlive : s.isBeingDeleted = false) (hc : c.Coherent) :
    (s.reconcile config now).Ensures F c fun _ c' =>
      c.imageStreams.ChangesBy (c.Republishes s) c'.imageStreams := by
  have hkeep {r : Request} (hr : r.part ≠ some .imageStreams) {c' : Cluster}
      (h : Publishing s c c') : Publishing s c (c'.serve r).2 :=
    h.of_same (h.coherent.serve r) (pipelines_serve r c') (imageStreams_serve hr c')
  refine (ensures_reconcile_keep hlive (fun r c' hr h => ?plain) (fun c' h => h.promote)
    (fun c' h => ?put) (Publishing.start s hc)).mono fun _ _ h => h.streams
  case plain => exact hkeep (hr.part_ne (by decide)) h
  case put =>
    exact (ReleaseJob.asks_put s).ensures (fun r c'' hr h => hkeep (hr.part_ne (by decide)) h) h

theorem ensures_reconcile_reissues (hlive : s.isBeingDeleted = false) (hc : c.Coherent) :
    (s.reconcile config now).Ensures F c fun _ c' =>
      c.releaseJobs.ChangesBy s.Reissues c'.releaseJobs := by
  have hkeep {r : Request} (hr : r.part ≠ some .releaseJobs) {c' : Cluster}
      (h : c'.Coherent ∧ c.releaseJobs.ChangesBy s.Reissues c'.releaseJobs) :
      (c'.serve r).2.Coherent ∧
        c.releaseJobs.ChangesBy s.Reissues (c'.serve r).2.releaseJobs :=
    ⟨h.1.serve r, (releaseJobs_serve hr c').symm ▸ h.2⟩
  refine (ensures_reconcile_keep (I := fun c' => c'.Coherent ∧
    c.releaseJobs.ChangesBy s.Reissues c'.releaseJobs) hlive (fun r c' hr h => ?plain)
    (fun c' h => ?promote) (fun c' h => ?put) ⟨hc, .refl _ _⟩).mono fun _ _ h => h.2
  case plain => exact hkeep (hr.part_ne (by decide)) h
  case promote =>
    exact (Promotion.asks_promote s).ensures
      (fun r c'' hr h => hkeep (hr.part_ne (by decide)) h) h
  case put =>
    obtain ⟨hc', hchanges⟩ := h
    refine ((hc'.ensures _).and (ReleaseJob.ensures_put_changes hc')).mono ?_
    rintro _ c'' ⟨hc'', hstep⟩
    exact ⟨hc'', hchanges.trans (fun _ _ _ _ => .trans) hstep⟩

/-- **What a reconcile of a live stage can change**, however it ends. -/
theorem ensures_reconcile_liveFrame (config : Config) (now : Timestamp)
    (hlive : s.isBeingDeleted = false) (hc : c.Coherent) :
    (s.reconcile config now).Ensures F c fun _ c' => LiveFrame config s c c' := by
  have hupkeep : (s.reconcile config now).Ensures F c fun _ c' => Upkeep config s c c' :=
    (asks_reconcile_tends hlive).ensures (fun _ c' hr h => h.trans (upkeep_serve hr c'))
      (.refl config s c)
  refine (hupkeep.and ((ensures_reconcile_republishes hlive hc).and
    (ensures_reconcile_reissues hlive hc))).mono ?_
  rintro _ c' ⟨hupkeep, himageStreams, hreleaseJobs⟩
  exact ⟨hupkeep, himageStreams, hreleaseJobs⟩

end Stage

/-! ### A stage under deletion -/

/-- A reconcile of the stage `s` under deletion makes no other requests. What is put into streams is
left open. -/
def Request.Clears (s : Stage) : Request → Prop
  | patchStageFinalizers n m _ finalizers =>
    (⟨n, m⟩ : ObjectKey) = s.key ∧ finalizers = s.otherFinalizers
  | deleteNamespace n | deleteProject n => n = s.targetNamespace
  | r => r.Within [.imageStreams]

open Request (Clears)

section

variable {r : Request}

theorem Request.clears_of_isRead (h : r.isRead = true) : r.Clears s := by
  cases r <;> trivial

theorem Request.clears_of_within (h : r.Within [.imageStreams]) : r.Clears s := by
  cases r <;> first | exact h | exact absurd h (by simp [Within, part])

theorem Clearance.refl (s : Stage) (c : Cluster) : Clearance s c c where
  stages := .refl _ _
  pipelines := rfl
  components := rfl
  releaseJobs := rfl
  roles := rfl
  roleBindings := rfl
  namespaces := .refl _ _
  spaces := rfl
  projects := .refl _ _

theorem Clearance.trans (h : Clearance s c c') (k : Clearance s c' c'') : Clearance s c c'' where
  stages := h.stages.trans (fun _ _ _ _ => .trans) k.stages
  pipelines := k.pipelines.trans h.pipelines
  components := k.components.trans h.components
  releaseJobs := k.releaseJobs.trans h.releaseJobs
  roles := k.roles.trans h.roles
  roleBindings := k.roleBindings.trans h.roleBindings
  namespaces := h.namespaces.trans (fun _ _ _ _ _ h => h) k.namespaces
  spaces := k.spaces.trans h.spaces
  projects := h.projects.trans (fun _ _ _ _ _ h => h) k.projects

/-- Of the stages it is the deleted one whose finalizers are written, and they are those of others.
-/
theorem Cluster.stages_serve_cleared (h : r.Clears s) (c : Cluster) :
    c.stages.ChangesBy s.Released (c.serve r).2.stages := by
  cases r with
  | patchStageFinalizers n m version finalizers =>
      obtain ⟨hkey, rfl⟩ := h
      simp only [serve, patchFinalizers, hkey]
      split
      · exact .refl _ _
      · next t ht =>
        split
        · split
          · next hlast =>
            have hnone := List.isEmpty_iff.1 (Bool.and_eq_true_iff.1 hlast).1
            exact Dict.changesBy_erase ⟨rfl, t, ht, .inl ⟨rfl, hnone⟩⟩
          · exact Dict.changesBy_insert ⟨rfl, t, ht, .inr ⟨_, rfl⟩⟩
        · exact .refl _ _
  | patchStageStatus | patchStageOwnership =>
      exact absurd h (by simp [Clears, Request.Within, Request.part])
  | _ => exact .of_eq (stages_serve (by simp [Request.part]) c)

/-- Only the target goes. -/
theorem Cluster.places_serve_cleared (h : r.Clears s) (c : Cluster) :
    c.namespaces.ChangesBy s.LosesPlace (c.serve r).2.namespaces ∧
      (c.serve r).2.spaces = c.spaces ∧
      c.projects.ChangesBy s.LosesPlace (c.serve r).2.projects := by
  have hsame {c' : Cluster} (hc' : c'.places = c.places) :
      c.namespaces.ChangesBy s.LosesPlace c'.namespaces ∧ c'.spaces = c.spaces ∧
        c.projects.ChangesBy s.LosesPlace c'.projects :=
    ⟨.of_eq (congrArg (·.namespaces) hc'), congrArg (·.spaces) hc',
      .of_eq (congrArg (·.projects) hc')⟩
  have herase (names : NameSet) :
      names.ChangesBy s.LosesPlace (names.erase s.targetNamespace) :=
    Dict.changesBy_erase ⟨rfl, rfl⟩
  cases r with
  | deleteNamespace n =>
      obtain rfl : n = s.targetNamespace := h
      simp only [serve, deleteNamespace]
      split
      · exact ⟨herase _, rfl, .refl _ _⟩
      · exact hsame rfl
  | deleteProject n =>
      obtain rfl : n = s.targetNamespace := h
      simp only [serve, deleteProject]
      split
      · exact ⟨herase _, rfl, herase _⟩
      · exact hsame rfl
  | createNamespace | createSpace | createProject =>
      exact absurd h (by simp [Clears, Request.Within, Request.part])
  | _ => exact hsame (places_serve (by simp [Request.part]) (by simp [Request.part]) c)

theorem Request.Clears.part_ne (h : r.Clears s) :
    r.part ≠ some .releaseJobs ∧ r.part ≠ some .access := by
  cases r <;> simp_all [Clears, Within, part]

theorem clearance_serve (h : r.Clears s) (c : Cluster) : Clearance s c (c.serve r).2 where
  stages := stages_serve_cleared h c
  pipelines := pipelines_serve r c
  components := components_serve r c
  releaseJobs := releaseJobs_serve h.part_ne.1 c
  roles := (access_serve h.part_ne.2 c).1
  roleBindings := (access_serve h.part_ne.2 c).2
  namespaces := (places_serve_cleared h c).1
  spaces := (places_serve_cleared h c).2.1
  projects := (places_serve_cleared h c).2.2

end

namespace Stage

/-- A reconcile of a stage under deletion asks for clearance only. -/
theorem asks_reconcile_clears (hdeleted : s.isBeingDeleted = true) :
    (s.reconcile config now).Asks (Clears s) := by
  refine asks_reconcile_deleted hdeleted ?siblings ?labels ?removal ?release
  case siblings => exact (s.reads_siblings _).asks.mono fun _ h => Request.clears_of_isRead h
  case labels =>
    exact (Retirement.asks_deleteEnvironmentLabels s).mono fun _ h => Request.clears_of_within h
  case removal => exact Target.asks_removal_of (fun _ _ => rfl) fun _ _ => rfl
  case release =>
    unfold releaseFinalizer Finalizers.remove?
    dsimp only
    split
    · trivial
    · next finalizers h =>
      split at h
      · cases h
        exact asks_request ⟨rfl, rfl⟩
      · cases h

theorem ensures_reconcile_retiresFrom (hdeleted : s.isBeingDeleted = true) (hc : c.Coherent) :
    (s.reconcile config now).Ensures F c fun _ c' =>
      c.imageStreams.ChangesBy (c.RetiresFrom s) c'.imageStreams := by
  rw [reconcile, if_pos hdeleted]
  refine ensures_reconcileDeletion (ensures_advanceDeletion _ rfl (fun e _ => .refl _ _)
    (fun _ => .refl _ _) fun _ => ?_)
  rw [Target.deprovision_eq, bind_assoc]
  have hrest : (Target.removal config s >>= fun _ => s.releaseFinalizer).Asks
      (Request.Within [.removals, .stages]) := by
    refine Asks.bind ?_ fun _ => s.asks_releaseFinalizer.wider (by simp)
    exact Target.asks_removal_of (fun _ _ => List.mem_cons_self) fun _ _ => List.mem_cons_self
  have hlabels : (Retirement.deleteEnvironmentLabels s).Ensures F c fun _ c' =>
      c.imageStreams.ChangesBy (c.RetiresFrom s) c'.imageStreams := by
    refine (Retirement.ensures_deleteEnvironmentLabels hc).mono ?_
    rintro _ c' (⟨rfl, -⟩ | ⟨env, ds, hds, hafter, -⟩)
    · exact .refl _ _
    · intro k
      refine (hafter.streams k).imp_right ?_
      rintro ⟨hk, x, version, hx, -, hy⟩
      exact ⟨env, ds, x, _, hds, hk, hx, hy, x.retiredAs_retire env version⟩
  refine hlabels.bind (fun _ c' h => ?_) fun _ _ h => h
  exact (hrest.ensures_imageStreams (by decide)).mono fun _ c'' hsame => hsame.symm ▸ h

/-- **What a reconcile of a stage under deletion can change**, however it ends. -/
theorem ensures_reconcile_deletionFrame (config : Config) (now : Timestamp)
    (hdeleted : s.isBeingDeleted = true) (hc : c.Coherent) :
    (s.reconcile config now).Ensures F c fun _ c' => DeletionFrame s c c' := by
  have hclearance : (s.reconcile config now).Ensures F c fun _ c' => Clearance s c c' :=
    (asks_reconcile_clears hdeleted).ensures (fun _ c' hr h => h.trans (clearance_serve hr c'))
      (.refl s c)
  refine (hclearance.and (ensures_reconcile_retiresFrom hdeleted hc)).mono ?_
  rintro _ c' ⟨hclearance, himageStreams⟩
  exact ⟨hclearance, himageStreams⟩

end Stage

/-! ### The stored stage -/

theorem LiveFrame.of_calm (h : LiveFrame config s c.calm c'.calm) : LiveFrame config s c c' :=
  { h with }

theorem DeletionFrame.of_calm (h : DeletionFrame s c.calm c'.calm) : DeletionFrame s c c' := by
  refine { h.toClearance with imageStreams := h.imageStreams.mono fun k x y hxy => ?_ }
  rwa [RetiresFrom, retirement_calm] at hxy

namespace World

/-- **The frame of a reconcile.** Whatever is stored and whatever fails, a reconcile changes nothing
but what is listed: of a live stage its own metadata and status, the role and bindings in its target
and the target itself where they are missing, the streams it publishes in and its job; of one under
deletion its finalizers, its target and the environment on the streams that it consumes. Counters
and what is to fail are not looked at. -/
theorem reconcile_keeps_frame {w : World} (hw : w.cluster.Reachable) {key : ObjectKey}
    (hs : w.cluster.stages.get? key = some s) (now : Timestamp) :
    let after := (w.apply (.reconcile now key)).cluster
    s.key = key ∧
      (s.isBeingDeleted = false → LiveFrame w.config s w.cluster after) ∧
      (s.isBeingDeleted = true → DeletionFrame s w.cluster after) := by
  intro after
  have hfaults : w.observed.FailsWith fun _ => True := ⟨fun _ _ => trivial, fun _ _ => trivial⟩
  have hc : w.observed.cluster.calm.Coherent := hw.coherent.calm
  refine ⟨hw.coherent.stages key s hs, fun hlive => ?_, fun hdeleted => ?_⟩
  · obtain ⟨-, -, hframe⟩ := ObservedCluster.reconcile_of_ensures hfaults hs
      (Stage.ensures_reconcile_liveFrame w.config now hlive hc)
    exact hframe.of_calm
  · obtain ⟨-, -, hframe⟩ := ObservedCluster.reconcile_of_ensures hfaults hs
      (Stage.ensures_reconcile_deletionFrame w.config now hdeleted hc)
    exact hframe.of_calm

open Sample in
/-- Of two stages the first one is provisioned, and later the second one is cleaned up. Both change
much, and neither changes the other stage. -/
theorem reconcile_keeps_frame_of_two_stages :
    let up := ({} : World).run twoStages
    let provisioned := (up.apply (.reconcile .epoch (key "dev"))).cluster
    let leaving := ({} : World).run twoStagesLeaving
    let cleaned := (leaving.apply (.reconcile .epoch (key "qa"))).cluster
    (∃ s, up.cluster.stages.get? (key "dev") = some s ∧
      LiveFrame up.config s up.cluster provisioned ∧
      provisioned.stages.get? (key "qa") = up.cluster.stages.get? (key "qa") ∧
      provisioned.releaseJobs.contains (key "dev") = true ∧
      provisioned.imageStreams.contains ⟨"edp", "mobile-dev-app-verified"⟩ = true) ∧
    ∃ s, leaving.cluster.stages.get? (key "qa") = some s ∧
      DeletionFrame s leaving.cluster cleaned ∧
      cleaned.stages.get? (key "dev") = leaving.cluster.stages.get? (key "dev") ∧
      cleaned.stages.contains (key "qa") = false ∧
      (cleaned.imageStreams.get? ⟨"edp", "mobile-dev-app-verified"⟩).map
        (·.lastDeletedEnvironments) = some ["mobile/qa"] := by
  intro up provisioned leaving cleaned
  have hother : key "qa" ≠ key "dev" := by decide
  constructor
  · obtain ⟨s, hs, hlive⟩ := (Option.any_eq_true (fun s => !s.isBeingDeleted)
      (up.cluster.stages.get? (key "dev"))).1 (by decide +kernel)
    obtain ⟨hkey, hframe, -⟩ := reconcile_keeps_frame (reachable_run twoStages) hs .epoch
    have hframe := hframe (by simpa using hlive)
    refine ⟨s, hs, hframe, ?_, by decide +kernel, by decide +kernel⟩
    rcases hframe.stages (key "qa") with hsame | ⟨hqa, -⟩
    · exact hsame
    · exact absurd (hqa.trans hkey) hother
  · obtain ⟨s, hs, hdeleted⟩ := (Option.any_eq_true Stage.isBeingDeleted
      (leaving.cluster.stages.get? (key "qa"))).1 (by decide +kernel)
    obtain ⟨hkey, -, hframe⟩ := reconcile_keeps_frame (reachable_run twoStagesLeaving) hs .epoch
    have hframe := hframe hdeleted
    refine ⟨s, hs, hframe, ?_, by decide +kernel, by decide +kernel⟩
    rcases hframe.stages (key "dev") with hsame | ⟨hdev, -⟩
    · exact hsame
    · exact absurd (hdev.trans hkey).symm hother

end World

end Conveyor
