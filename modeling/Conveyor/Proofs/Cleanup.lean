import Conveyor.Proofs.Retirement
import Conveyor.Proofs.Scenario

/-!
The cleanup of a deleted stage over any number of attempts. A failure may strike anywhere, and the
next attempt begins with what the last one left. It then resolves the same streams, some of them
retired by now, and finishes the others. The finalizer goes last, so that as long as it is there the
stage is as it was and everything is done again.

The invariant of the attempts is `Stage.Leaving`: either the stage is still what it was, and still
one that may go (`Stage.MayGo`), or it has been let go.
-/

namespace Conveyor

open Session
open Promotion (Consumed KeyOf)
open EnvironmentHistory (IsEntry)

namespace Stage

variable {F : Error → Prop} {c : Cluster} {s : Stage}

/-- The finalizers of other controllers. -/
def otherFinalizers (s : Stage) : List String := s.finalizers.filter (· ≠ finalizer)

/-- The stage is let go: it has only the finalizers of others left, and without any it is gone. -/
def LetGo (s : Stage) (c : Cluster) : Prop :=
  match c.stages.get? s.key with
  | none => s.otherFinalizers = []
  | some a => a.finalizers = s.otherFinalizers ∧ s.otherFinalizers ≠ [] ∧
      a.isBeingDeleted = s.isBeingDeleted

theorem finalizer_not_mem_otherFinalizers : finalizer ∉ s.otherFinalizers := by
  intro h
  exact of_decide_eq_true (List.mem_filter.1 h).2 rfl

theorem ensures_releaseFinalizer (hs : c.stages.get? s.key = some s)
    (hdeleted : s.isBeingDeleted = true) (hfin : s.hasFinalizer = true) :
    s.releaseFinalizer.Ensures F c fun r c' => (∃ stages n writes,
        c' = { c with stages, revision := n, stageWrites := writes }) ∧
      match r with
      | .ok () => s.LetGo c'
      | .error _ => c' = c ∧ ∃ e, F e := by
  have hremove : Finalizers.remove? s.metadata.finalizers finalizer = some s.otherFinalizers :=
    if_pos hfin
  unfold releaseFinalizer
  simp only [hremove]
  refine ensures_request.2 ⟨fun e he => ⟨⟨_, _, _, rfl⟩, rfl, e, he⟩, ?_⟩
  cases hother : s.otherFinalizers with
  | nil =>
      simp only [Cluster.serve]
      rw [show (⟨s.namespaceName, s.name⟩ : ObjectKey) = s.key from rfl,
        Cluster.patchFinalizers_of_last hs hdeleted]
      refine ⟨⟨_, _, _, rfl⟩, ?_⟩
      simp only [LetGo, Dict.get?_erase_self, hother]
  | cons f fs =>
      simp only [Cluster.serve]
      rw [show (⟨s.namespaceName, s.name⟩ : ObjectKey) = s.key from rfl,
        Cluster.patchFinalizers_of_kept hs rfl]
      refine ⟨⟨_, _, _, rfl⟩, ?_⟩
      simp only [LetGo, Cluster.writeStage, Dict.get?_insert_self, hother]
      exact ⟨rfl, List.cons_ne_nil f fs, rfl⟩

/-- What an attempt has done to the streams. Where a look-up failed, that is nothing. -/
def RetiresStreams (s : Stage) (c c' : Cluster) : Prop :=
  c'.imageStreams = c.imageStreams ∨ ∃ env ds, c.retirement s = .ok (env, ds) ∧
    Retires env (KeyOf s.namespaceName ds) c.imageStreams c'.imageStreams

/-- What has been done by the time that a stage is let go. -/
def CleanedUp (config : Config) (s : Stage) (c c' : Cluster) : Prop :=
  ∃ env ds, c.retirement s = .ok (env, ds) ∧
    Settled env (KeyOf s.namespaceName ds) c'.imageStreams ∧ Target.Gone config s c' ∧ s.LetGo c'

/-- The stage is to go, and it may: nothing depends on it, and its environment is one entry of a
history. -/
structure MayGo (s : Stage) (c : Cluster) : Prop where
  coherent : c.Coherent
  stored : c.stages.get? s.key = some s
  deleted : s.isBeingDeleted = true
  finalizer : s.hasFinalizer = true
  free : s.hasDependents (c.siblings s s.pipelineName) = false
  entry : ∀ pipeline, c.pipelineOf s = .ok pipeline →
    IsEntry (s.environmentLabel pipeline.spec.name)

/-- Cleanup and release. All look-ups come before all writes, and the write of the stage comes last.
-/
theorem ensures_finalize (config : Config) (hF : ∀ e, F e → e.isNotFound = false)
    (hs : s.MayGo c) :
    (deprovision config s >>= fun _ => s.releaseFinalizer).Ensures F c fun r c' =>
      (c'.pipelines = c.pipelines ∧ s.RetiresStreams c c') ∧
        match r with
        | .ok () => s.CleanedUp config c c'
        | .error _ => c'.stages = c.stages := by
  rw [Target.deprovision_eq, bind_assoc]
  refine (Retirement.ensures_deleteEnvironmentLabels hs.coherent).bind (fun u c₁ h => ?_)
    fun e c₁ h => ?_
  · rcases h with ⟨-, h⟩ | ⟨env, ds, hds, ⟨⟨streams, n, rfl⟩, hretires⟩, hsettled⟩
    · exact absurd rfl h
    refine (Target.ensures_removal config s hF).bind (fun u' c₂ h => ?_) fun e c₂ h => ?_
    · obtain ⟨⟨namespaces, projects, rfl⟩, hgone⟩ := h
      refine Ensures.mono (ensures_releaseFinalizer ?stored hs.deleted hs.finalizer) ?_
      case stored => exact hs.stored
      rintro r c₃ ⟨⟨stages, n', writes, rfl⟩, hr⟩
      refine ⟨⟨rfl, .inr ⟨env, ds, hds, hretires⟩⟩, ?_⟩
      cases r with
      | ok u =>
          obtain ⟨pipeline, hpipeline, -, henv⟩ := Cluster.retirement_eq_ok.1 hds
          have hsettled := hsettled (henv ▸ hs.entry pipeline hpipeline) rfl
          exact ⟨env, ds, hds, hsettled, hgone, hr⟩
      | error e =>
          have hstages := congrArg Cluster.stages hr.1
          exact hstages
    · obtain ⟨⟨namespaces, projects, rfl⟩, -⟩ := h
      exact ⟨⟨rfl, .inr ⟨env, ds, hds, hretires⟩⟩, rfl⟩
  · rcases h with ⟨rfl, -⟩ | ⟨env, ds, hds, ⟨⟨streams, n, rfl⟩, hretires⟩, -⟩
    · exact ⟨⟨rfl, .inl rfl⟩, rfl⟩
    · exact ⟨⟨rfl, .inr ⟨env, ds, hds, hretires⟩⟩, rfl⟩

/-- The same for a reconcile that finds the deletion in `finalizing`. -/
theorem ensures_reconcileDeletion_finalizing (config : Config)
    (hF : ∀ e, F e → e.isNotFound = false) (hs : s.MayGo c) :
    (s.reconcileDeletion config).Ensures F c fun r c' =>
      (c'.pipelines = c.pipelines ∧ s.RetiresStreams c c') ∧
        match r with
        | .ok _ => s.CleanedUp config c c'
        | .error _ => c'.stages = c.stages := by
  have hstate : s.deletionState (c.siblings s s.pipelineName) = .finalizing :=
    deletionState_eq_finalizing.2 ⟨hs.deleted, hs.finalizer, hs.free⟩
  refine ensures_reconcileDeletion (ensures_advanceDeletion _ hstate (fun e _ => ?_)
    (fun hne => absurd rfl hne) fun _ => ?_)
  · exact ⟨⟨rfl, .inl rfl⟩, rfl⟩
  · refine (ensures_finalize config hF hs).mono ?_
    rintro r c' ⟨hframe, hr⟩
    cases r <;> exact ⟨hframe, hr⟩

/-! ### The attempts -/

/-- Where the deletion of `s`, as it was found in `c`, has got to in `c'`. -/
structure Leaving (s : Stage) (c c' : Cluster) : Prop where
  coherent : c'.Coherent
  pipelines : c'.pipelines = c.pipelines
  streams : s.RetiresStreams c c'
  stages : c'.stages = c.stages ∨ s.LetGo c'

/-- As long as the stages are what they were, the next attempt is like the first one. -/
theorem MayGo.of_leaving {c c' : Cluster} (hs : s.MayGo c) (h : s.Leaving c c')
    (hstages : c'.stages = c.stages) : s.MayGo c' where
  coherent := h.coherent
  stored := hstages ▸ hs.stored
  deleted := hs.deleted
  finalizer := hs.finalizer
  free := by
    rw [Cluster.siblings, Cluster.stagesOf, hstages]
    exact hs.free
  entry pipeline hpipeline := by
    rw [Cluster.pipelineOf, h.pipelines] at hpipeline
    exact hs.entry pipeline hpipeline

/-- A stream that is found under a name keeps its place and its codebase. -/
theorem kept_of_retires {env : String} {K : ObjectKey → Prop} {os os' : Objects ImageStream}
    (h : Retires env K os os') (namespaceName : String) {k : ObjectKey} {x : ImageStream}
    (hx : os.get? k = some x) :
    ∃ y, os'.get? k = some y ∧ y.spec.codebase = x.spec.codebase ∧
      Cluster.keyIn namespaceName y = Cluster.keyIn namespaceName x := by
  rcases h k with hk | ⟨-, y, version, hy, -, hk⟩
  · exact ⟨x, hk.trans hx, rfl, rfl⟩
  · rw [hy] at hx
    cases hx
    exact ⟨_, hk, rfl, rfl⟩

/-- What a stage consumes for an input is found in the same place after some streams are retired. -/
theorem consumedFor_of_retires {c c' : Cluster} {env : String} {K : ObjectKey → Prop}
    (hretires : Retires env K c.imageStreams c'.imageStreams) {pipeline : Pipeline}
    {predecessor : Option Stage} {input : String} {d : Consumed}
    (hd : c.consumedFor s pipeline predecessor input = .ok d) :
    ∃ d', c'.consumedFor s pipeline predecessor input = .ok d' ∧
      Cluster.keyIn s.namespaceName d.stream = Cluster.keyIn s.namespaceName d'.stream := by
  obtain ⟨source, hsource, -, hstream⟩ := Cluster.consumedFor_eq_ok.1 hd
  obtain ⟨source', hsource', hcodebase, hkey⟩ := kept_of_retires hretires s.namespaceName hsource
  cases predecessor with
  | none =>
      refine ⟨⟨_, source'⟩, Cluster.consumedFor_eq_ok.2 ⟨source', hsource', rfl, rfl⟩, ?_⟩
      rw [hstream, hkey]
  | some p =>
      obtain ⟨verified, hverified, -, hkey'⟩ := kept_of_retires hretires s.namespaceName hstream
      refine ⟨⟨_, verified⟩, Cluster.consumedFor_eq_ok.2 ⟨source', hsource', rfl, ?_⟩, hkey'.symm⟩
      rw [hcodebase]
      exact hverified

/-- Attempts resolve the same streams, in whatever state they are. -/
theorem retirement_of_retires {c c' : Cluster} {env : String}
    {ds : List Consumed} (hpipelines : c'.pipelines = c.pipelines) (hstages : c'.stages = c.stages)
    (hds : c.retirement s = .ok (env, ds)) {K : ObjectKey → Prop}
    (hretires : Retires env K c.imageStreams c'.imageStreams) :
    ∃ ds', c'.retirement s = .ok (env, ds') ∧
      ∀ k, KeyOf s.namespaceName ds' k ↔ KeyOf s.namespaceName ds k := by
  obtain ⟨pipeline, hpipeline, hconsumed, rfl⟩ := Cluster.retirement_eq_ok.1 hds
  obtain ⟨names, hnames, predecessor, hpredecessor, hall⟩ := Cluster.consumed_eq_ok.1 hconsumed
  obtain ⟨ds', hds', hkeys⟩ := Cluster.consumedForAll_forall₂
    (fun input _ d hd => consumedFor_of_retires hretires hd) hall
  have hpipeline' : c'.pipelineOf s = .ok pipeline := by
    rw [← hpipeline, Cluster.pipelineOf, Cluster.pipelineOf, hpipelines]
  have hpredecessor' : c'.predecessor? s pipeline.name = .ok predecessor := by
    rw [← hpredecessor]
    simp only [Cluster.predecessor?, Cluster.predecessor, Cluster.siblings, Cluster.stagesOf,
      hstages]
  have hplaces : ds.map (fun d => Cluster.keyIn s.namespaceName d.stream) =
      ds'.map fun d => Cluster.keyIn s.namespaceName d.stream := by
    rw [← List.forall₂_eq_eq_eq, List.forall₂_map_left_iff, List.forall₂_map_right_iff]
    exact hkeys
  refine ⟨ds', Cluster.retirement_eq_ok.2 ⟨pipeline, hpipeline',
    Cluster.consumed_eq_ok.2 ⟨names, hnames, predecessor, hpredecessor', hds'⟩, rfl⟩, fun k => ?_⟩
  simp only [KeyOf, eq_comm (a := k), ← List.mem_map, hplaces]

/-- What an attempt resolves, the first one would have resolved as well. -/
theorem RetiresStreams.retirement {c c' : Cluster} (h : s.RetiresStreams c c')
    (hpipelines : c'.pipelines = c.pipelines) (hstages : c'.stages = c.stages) {env : String}
    {ds' : List Consumed} (hds' : c'.retirement s = .ok (env, ds')) :
    ∃ ds, c.retirement s = .ok (env, ds) ∧
      ∀ k, KeyOf s.namespaceName ds' k ↔ KeyOf s.namespaceName ds k := by
  rcases h with hsame | ⟨env₀, ds, hds, hretires⟩
  · rw [Cluster.retirement_congr hpipelines hstages hsame] at hds'
    exact ⟨ds', hds', fun k => Iff.rfl⟩
  · obtain ⟨ds'', hds'', hkeys⟩ := retirement_of_retires hpipelines hstages hds hretires
    rw [hds''] at hds'
    cases hds'
    exact ⟨ds, hds, hkeys⟩

theorem RetiresStreams.trans {c c' c'' : Cluster} (hs : s.MayGo c)
    (hpipelines : c'.pipelines = c.pipelines) (hstages : c'.stages = c.stages)
    (h : s.RetiresStreams c c') (h' : s.RetiresStreams c' c'') : s.RetiresStreams c c'' := by
  rcases h' with hsame | ⟨env, ds', hds', hretires'⟩
  · rw [RetiresStreams, hsame]
    exact h
  · obtain ⟨ds, hds, hkeys⟩ := h.retirement hpipelines hstages hds'
    obtain ⟨pipeline, hpipeline, -, henv⟩ := Cluster.retirement_eq_ok.1 hds
    have hretires'' := hretires'.mono fun k => (hkeys k).1
    refine .inr ⟨env, ds, hds, ?_⟩
    rcases h with hsame | ⟨env₀, ds₀, hds₀, hretires⟩
    · rwa [← hsame]
    · rw [hds₀] at hds
      cases hds
      exact hretires.trans (henv ▸ hs.entry pipeline hpipeline) hretires''

/-- A consumed stream is as it was, or it is retired. -/
theorem RetiresStreams.atomic {c c' : Cluster} (h : s.RetiresStreams c c') {env : String}
    {ds : List Consumed} (hds : c.retirement s = .ok (env, ds)) {d : Consumed}
    (hstored : c.imageStreams.get? (Cluster.keyIn s.namespaceName d.stream) = some d.stream) :
    c'.imageStreams.get? (Cluster.keyIn s.namespaceName d.stream) = some d.stream ∨
      ∃ version, c'.imageStreams.get? (Cluster.keyIn s.namespaceName d.stream) =
        some (Resource.versioned (d.stream.retire env) version) := by
  rcases h with hsame | ⟨env₀, ds₀, hds₀, hretires⟩
  · exact .inl (hsame ▸ hstored)
  · rw [hds] at hds₀
    cases hds₀
    rcases hretires (Cluster.keyIn s.namespaceName d.stream) with hsame | ⟨-, x, version, hx, -, hk⟩
    · exact .inl (hsame.trans hstored)
    · rw [hstored] at hx
      cases hx
      exact .inr ⟨version, hk⟩

/-- **Streams are retired one by one, each of them in full.** Each stream that the stage consumed is
as it was, or it has lost the label and has the environment in its history. -/
theorem RetiresStreams.same_or_retired {c c' : Cluster} (h : s.RetiresStreams c c')
    (hs : s.MayGo c) {env : String} {ds : List Consumed} (hds : c.retirement s = .ok (env, ds))
    {d : Consumed} (hd : d ∈ ds) :
    c.imageStreams.get? (Cluster.keyIn s.namespaceName d.stream) = some d.stream ∧
      (c'.imageStreams.get? (Cluster.keyIn s.namespaceName d.stream) = some d.stream ∨
        ∃ x, c'.imageStreams.get? (Cluster.keyIn s.namespaceName d.stream) = some x ∧
          x.labels.get? env = none ∧ env ∈ x.lastDeletedEnvironments) := by
  have hstored := hs.coherent.stored_of_retirement hds d hd
  refine ⟨hstored, ?_⟩
  obtain ⟨pipeline, hpipeline, -, henv⟩ := Cluster.retirement_eq_ok.1 hds
  rcases h.atomic hds hstored with hsame | ⟨version, hretired⟩
  · exact .inl hsame
  · refine .inr ⟨_, hretired, Dict.get?_erase_self _ _, ?_⟩
    have hhistory :=
      ImageStream.lastDeletedEnvironments_retire (henv ▸ hs.entry pipeline hpipeline) d.stream
    exact hhistory.symm ▸ EnvironmentHistory.mem_record env _

/-- The finalizers of others are left, and without any the stage is gone. -/
theorem LetGo.finalizers {c' : Cluster} (h : s.LetGo c') :
    c'.stages.get? s.key = none ∧ s.otherFinalizers = [] ∨
      ∃ b, c'.stages.get? s.key = some b ∧ b.finalizers = s.otherFinalizers := by
  unfold LetGo at h
  split at h
  · next hnone => exact .inl ⟨hnone, h⟩
  · next b hb => exact .inr ⟨b, hb, h.1⟩

theorem LetGo.of_stored {c' : Cluster} (h : s.LetGo c') {a : Stage}
    (ha : c'.stages.get? s.key = some a) :
    a.hasFinalizer = false ∧ a.isBeingDeleted = s.isBeingDeleted := by
  unfold LetGo at h
  rw [ha] at h
  obtain ⟨hfin, -, hdeleted⟩ := h
  refine ⟨?_, hdeleted⟩
  rw [hasFinalizer, hfin, List.contains_eq_mem]
  exact decide_eq_false finalizer_not_mem_otherFinalizers

/-- **One attempt.** It keeps the invariant, a failure leaves all stages alone, and if it takes the
finalizer off, then everything has been done. -/
theorem ensures_reconcile_leaving {c c' : Cluster} (config : Config) (now : Timestamp)
    (hF : ∀ e, F e → e.isNotFound = false) (hs : s.MayGo c) (h : s.Leaving c c') {a : Stage}
    (ha : c'.stages.get? s.key = some a) :
    (a.reconcile config now).Ensures F c' fun r c'' => s.Leaving c c'' ∧
      (∀ e, r = .error e → c''.stages = c'.stages) ∧
      (a.hasFinalizer = true → c''.stages ≠ c'.stages → s.CleanedUp config c c'') := by
  rcases h.stages with hstages | hgone
  · have hs' : s.MayGo c' := hs.of_leaving h hstages
    obtain rfl : s = a := Option.some.inj (hs'.stored.symm.trans ha)
    simp only [reconcile, hs.deleted, if_true]
    refine ((h.coherent.ensures _).and
      (ensures_reconcileDeletion_finalizing config hF hs')).mono ?_
    rintro r c'' ⟨hcoherent, ⟨hpipelines, hstreams⟩, hr⟩
    have hstreams' := h.streams.trans hs h.pipelines hstages hstreams
    have hpipelines' := hpipelines.trans h.pipelines
    cases r with
    | error e =>
        exact ⟨⟨hcoherent, hpipelines', hstreams', .inl (hr.trans hstages)⟩, fun _ _ => hr,
          fun _ hne => absurd hr hne⟩
    | ok action =>
        obtain ⟨env, ds', hds', hsettled, hgone, hletGo⟩ := hr
        obtain ⟨ds, hds, hkeys⟩ := h.streams.retirement h.pipelines hstages hds'
        refine ⟨⟨hcoherent, hpipelines', hstreams', .inr hletGo⟩, fun e he => ?_, fun _ _ => ?_⟩
        · exact absurd he.symm error_ne_ok
        · exact ⟨env, ds, hds, fun k hk => hsettled k ((hkeys k).2 hk), hgone, hletGo⟩
  · -- Once it is let go, the stage is only waited for.
    obtain ⟨hlost, hdeleted⟩ := hgone.of_stored ha
    have hstate : a.deletionState (c'.siblings a a.pipelineName) ≠ .finalizing := by
      intro hstate
      rw [(deletionState_eq_finalizing.1 hstate).2.1] at hlost
      cases hlost
    simp only [reconcile, hdeleted, hs.deleted, if_true]
    refine (ensures_reconcileDeletion_frame config a).mono ?_
    rintro r c'' ⟨-, hwait⟩
    obtain ⟨rfl, -⟩ := hwait hstate
    exact ⟨h, fun _ _ => rfl, fun _ hne => absurd rfl hne⟩

/-- When everything has been done, all consumed streams are retired, and their histories have grown
by the environment at most. -/
theorem CleanedUp.retired {c c' : Cluster} {config : Config} (h : s.CleanedUp config c c')
    (hs : s.MayGo c) (hstreams : s.RetiresStreams c c') :
    ∃ env ds, c.retirement s = .ok (env, ds) ∧ ∀ d ∈ ds, ∃ x,
      c'.imageStreams.get? (Cluster.keyIn s.namespaceName d.stream) = some x ∧
        x.labels.get? env = none ∧
        x.lastDeletedEnvironments =
          EnvironmentHistory.record env d.stream.lastDeletedEnvironments := by
  obtain ⟨env, ds, hds, hsettled, -, -⟩ := h
  obtain ⟨pipeline, hpipeline, -, rfl⟩ := Cluster.retirement_eq_ok.1 hds
  have henv := hs.entry pipeline hpipeline
  refine ⟨_, ds, hds, fun d hd => ?_⟩
  obtain ⟨x, hx, hneeds⟩ := hsettled _ ⟨d, hd, rfl⟩
  obtain ⟨hlabel, hhistory⟩ := ImageStream.retired_of_needsRetiring henv hneeds
  refine ⟨x, hx, hlabel, ?_⟩
  rcases hstreams.atomic hds (hs.coherent.stored_of_retirement hds d hd) with
    hsame | ⟨version, hretired⟩
  · rw [hsame] at hx
    cases hx
    exact hhistory
  · rw [hretired] at hx
    cases hx
    exact ImageStream.lastDeletedEnvironments_retire henv d.stream

theorem isEntry_environmentLabel {pipeline : String} (hpipeline : ',' ∉ pipeline.toList)
    (hstage : ',' ∉ s.spec.name.toList) : IsEntry (s.environmentLabel pipeline) := by
  have hchars := s.toList_environmentLabel pipeline
  constructor
  · intro hempty
    rw [hempty] at hchars
    simp at hchars
  · rw [hchars, List.mem_append, List.mem_cons]
    rintro (h | h | h)
    · exact hpipeline h
    · exact absurd h (by decide)
    · exact hstage h

end Stage

/-! ### Over whole runs -/

namespace World

variable {w : World} {s : Stage} {steps : List Step}

/-- Any number of attempts keep the invariant. -/
theorem leaving_of_attempts (hfaults : w.observed.FailsWith fun e => e.isNotFound = false)
    (hs : s.MayGo w.cluster.calm)
    (hsteps : ∀ step ∈ steps, step.IsAttempt (fun e => e.isNotFound = false) s.key) :
    s.Leaving w.cluster.calm (w.run steps).cluster.calm ∧
      (w.run steps).observed.FailsWith (fun e => e.isNotFound = false) ∧
      (w.run steps).config = w.config := by
  refine attempts_keep (fun o => (Cluster.isOutage_injectedFault o).1) hfaults
    (fun now c a h ha => ?_) ⟨hs.coherent, rfl, .inl rfl, .inl rfl⟩ hsteps
  have hattempt := Stage.ensures_reconcile_leaving w.config now (fun _ he => he) hs h ha
  exact hattempt.mono fun _ _ h => h.1

/-- The attempt after these, if the stage is still there. -/
theorem attempt_after_attempts (hfaults : w.observed.FailsWith fun e => e.isNotFound = false)
    (hs : s.MayGo w.cluster.calm)
    (hsteps : ∀ step ∈ steps, step.IsAttempt (fun e => e.isNotFound = false) s.key)
    (now : Timestamp) {a : Stage} (ha : (w.run steps).cluster.stages.get? s.key = some a) :
    let after := w.run steps
    let next := after.apply (.reconcile now s.key)
    ∃ r, after.answer now s.key = some r ∧ s.Leaving w.cluster.calm next.cluster.calm ∧
      (∀ e, r = .error e → next.cluster.stages = after.cluster.stages) ∧
      (a.hasFinalizer = true → next.cluster.stages ≠ after.cluster.stages →
        s.CleanedUp w.config w.cluster.calm next.cluster.calm) := by
  intro after next
  obtain ⟨hleaving, hfails, hconfig⟩ := leaving_of_attempts hfaults hs hsteps
  have hattempt := Stage.ensures_reconcile_leaving w.config now (fun _ he => he) hs hleaving ha
  rw [← hconfig] at hattempt ⊢
  exact ObservedCluster.reconcile_of_ensures hfails ha hattempt

/-- **Cleanup.** A deleted stage that nothing depends on is reconciled any number of times, and any
requests of it may fail, only not by saying that something is missing that is there. An attempt that
fails leaves the stage alone. At any time each of the streams that the stage consumed is as it was,
or retired in full. The finalizer goes when all of them are retired, each history has the
environment once more at most, and the target is removed if it is managed here; the finalizers of
others stay. -/
theorem cleanup_of_attempts {w : World} (hw : w.cluster.Reachable)
    (hfaults : w.observed.FailsWith fun e => e.isNotFound = false) {key : ObjectKey} {s : Stage}
    (hs : w.cluster.stages.get? key = some s) (hdeleted : s.isBeingDeleted = true)
    (hfin : s.hasFinalizer = true)
    (hfree : s.hasDependents (w.cluster.siblings s s.pipelineName) = false)
    (hpipeline : ∀ p, w.cluster.pipelineOf s = .ok p → ',' ∉ p.spec.name.toList)
    (hstage : ',' ∉ s.spec.name.toList) {steps : List Step}
    (hsteps : ∀ step ∈ steps, step.IsAttempt (fun e => e.isNotFound = false) key)
    (now : Timestamp) :
    let after := w.run steps
    let next := after.apply (.reconcile now key)
    (∀ e, after.answer now key = some (.error e) →
      next.cluster.stages.get? key = after.cluster.stages.get? key) ∧
    (∀ env ds, w.cluster.retirement s = .ok (env, ds) → ∀ d ∈ ds,
      let place := Cluster.keyIn s.namespaceName d.stream
      w.cluster.imageStreams.get? place = some d.stream ∧
        (after.cluster.imageStreams.get? place = some d.stream ∨
          ∃ x, after.cluster.imageStreams.get? place = some x ∧ x.labels.get? env = none ∧
            env ∈ x.lastDeletedEnvironments)) ∧
    (∀ a, after.cluster.stages.get? key = some a → a.hasFinalizer = true →
      (∀ b, next.cluster.stages.get? key = some b → b.hasFinalizer = false) →
      (∃ env ds, w.cluster.retirement s = .ok (env, ds) ∧ ∀ d ∈ ds, ∃ x,
        next.cluster.imageStreams.get? (Cluster.keyIn s.namespaceName d.stream) = some x ∧
          x.labels.get? env = none ∧
          x.lastDeletedEnvironments =
            if env ∈ d.stream.lastDeletedEnvironments then d.stream.lastDeletedEnvironments
            else d.stream.lastDeletedEnvironments ++ [env]) ∧
      (next.cluster.stages.get? key = none ∧ s.otherFinalizers = [] ∨
        ∃ b, next.cluster.stages.get? key = some b ∧ b.finalizers = s.otherFinalizers) ∧
      (w.config.managesNamespaces = true →
        if w.config.isKubernetes then next.cluster.namespaces.contains s.targetNamespace = false
        else next.cluster.projects.contains s.targetNamespace = false)) := by
  intro after next
  obtain rfl : s.key = key := hw.coherent.stages key s hs
  have hgo : s.MayGo w.cluster.calm := ⟨hw.coherent.calm, hs, hdeleted, hfin, hfree,
    fun p hp => Stage.isEntry_environmentLabel (hpipeline p hp) hstage⟩
  refine ⟨fun e he => ?failed, fun env ds hds d hd => ?streams, fun a ha hafin hlost => ?released⟩
  case failed =>
    cases ha : after.cluster.stages.get? s.key with
    | none =>
        rw [answer, ObservedCluster.reconcile_of_absent ha] at he
        cases he
    | some a =>
        obtain ⟨r, hr, -, hfailed, -⟩ := attempt_after_attempts hfaults hgo hsteps now ha
        obtain rfl : r = .error e := Option.some.inj (hr.symm.trans he)
        exact (congrArg (fun stages => stages.get? s.key) (hfailed e rfl)).trans ha
  case streams =>
    obtain ⟨hleaving, -, -⟩ := leaving_of_attempts hfaults hgo hsteps
    rw [← Cluster.retirement_calm] at hds
    exact hleaving.streams.same_or_retired hgo hds hd
  case released =>
    obtain ⟨r, -, hleaving, -, hdone⟩ := attempt_after_attempts hfaults hgo hsteps now ha
    have hclean := hdone hafin fun hsame => by
      have hkept := (congrArg (fun stages => stages.get? s.key) hsame).trans ha
      rw [hlost a hkept] at hafin
      cases hafin
    obtain ⟨env, ds, hds, hretired⟩ := hclean.retired hgo hleaving.streams
    rw [Cluster.retirement_calm] at hds
    obtain ⟨-, -, -, -, hgone, hletGo⟩ := hclean
    refine ⟨⟨env, ds, hds, fun d hd => ?_⟩, hletGo.finalizers, hgone⟩
    obtain ⟨x, hx, hlabel, hhistory⟩ := hretired d hd
    exact ⟨x, hx, hlabel, hhistory.trans (EnvironmentHistory.record_eq ..)⟩

open Sample in
/-- The third attempt completes what two failures have interrupted. -/
theorem cleanup_of_attempts_failing_twice :
    let w := ({} : World).run stageLeaving
    let next := (w.run failingTwice).apply (.reconcile .epoch (key "dev"))
    ∃ s env ds, w.cluster.stages.get? (key "dev") = some s ∧
      w.cluster.retirement s = .ok (env, ds) ∧ env = "mobile/dev" ∧ ∀ d ∈ ds, ∃ x,
        next.cluster.imageStreams.get? (Cluster.keyIn s.namespaceName d.stream) = some x ∧
          x.labels.get? env = none ∧
          x.lastDeletedEnvironments =
            if env ∈ d.stream.lastDeletedEnvironments then d.stream.lastDeletedEnvironments
            else d.stream.lastDeletedEnvironments ++ [env] := by
  intro w next
  have hw : w.cluster.Reachable := reachable_run _
  have hfaults : w.observed.FailsWith fun e => e.isNotFound = false :=
    ⟨by decide +kernel, fun o _ => (Cluster.isOutage_injectedFault o).1⟩
  obtain ⟨s, hs, hsample⟩ := (Option.any_eq_true (fun s => s.isBeingDeleted && s.hasFinalizer &&
    !s.hasDependents (w.cluster.siblings s s.pipelineName) && s.spec.name == "dev" &&
    s.namespaceName == "edp" && s.pipelineName == "mobile")
    (w.cluster.stages.get? (key "dev"))).1 (by decide +kernel)
  simp only [Bool.and_eq_true, Bool.not_eq_true', beq_iff_eq] at hsample
  obtain ⟨⟨⟨⟨⟨hdeleted, hfin⟩, hfree⟩, hname⟩, hnamespace⟩, hpipeline⟩ := hsample
  have hstored : w.cluster.pipelines.get? ⟨"edp", "mobile"⟩ =
      some (Resource.stored pipeline "edp" (Cluster.versionText 1)) := by decide +kernel
  have hfound (p : Pipeline) (hp : w.cluster.pipelineOf s = .ok p) : p.spec.name = "mobile" := by
    rw [Cluster.pipelineOf, Cluster.found_eq_ok, hnamespace, hpipeline, hstored] at hp
    cases hp
    rfl
  have hcomma (p : Pipeline) (hp : w.cluster.pipelineOf s = .ok p) : ',' ∉ p.spec.name.toList := by
    rw [hfound p hp]
    decide
  obtain ⟨a, ha, hafin⟩ := (Option.any_eq_true Stage.hasFinalizer
    ((w.run failingTwice).cluster.stages.get? (key "dev"))).1 (by decide +kernel)
  have hgone : next.cluster.stages.get? (key "dev") = none := by decide +kernel
  have hsteps : ∀ step ∈ failingTwice,
      step.IsAttempt (fun e => e.isNotFound = false) (key "dev") := by
    simp [failingTwice, Step.IsAttempt]
  obtain ⟨-, -, hdone⟩ := cleanup_of_attempts hw hfaults hs hdeleted hfin hfree hcomma
    (by rw [hname]; decide) hsteps .epoch
  obtain ⟨⟨env, ds, hds, hretired⟩, -⟩ := hdone a ha hafin fun b hb => by
    rw [hgone] at hb
    cases hb
  refine ⟨s, env, ds, hs, hds, ?_, hretired⟩
  obtain ⟨p, hp, -, henv⟩ := Cluster.retirement_eq_ok.1 hds
  rw [henv, Stage.environmentLabel, hfound p hp, hname]
  decide

end World

end Conveyor
