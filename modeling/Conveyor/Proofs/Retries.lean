import Conveyor.Proofs.Reconciling
import Conveyor.Proofs.Scenario

/-!
Provisioning that is interrupted and done again. However often it fails, and wherever, the first
attempt without failures ends where one without any interruption would have ended.
-/

namespace Conveyor

open Session Cluster

theorem Cluster.separate_like {s t : Stage} {c : Cluster} (h : t.Like s) :
    c.Separate t ↔ c.Separate s := by
  simp only [Separate, pipelineOf_like h, codebases_like h, h.spec]

theorem Cluster.separate_calm {s : Stage} {c : Cluster} : c.calm.Separate s ↔ c.Separate s := by
  have hstreams : c.calm.imageStreams = c.imageStreams := rfl
  have hcodebases (p : Pipeline) : c.calm.codebases s p = c.codebases s p := by
    rw [codebases_congr hstreams (fun _ => rfl)]
  have hpipeline : c.calm.pipelineOf s = c.pipelineOf s := rfl
  simp only [Separate, hcodebases, hpipeline]

/-- A stage publishes for one pipeline. -/
theorem Cluster.separate_of_found {s : Stage} {c : Cluster} {p : Pipeline} {xs : List String}
    (hp : c.pipelineOf s = .ok p) (hxs : c.codebases s p = .ok xs)
    (h : ∀ input ∈ p.spec.inputStreams, ∀ x ∈ xs,
      input ≠ Promotion.verifiedName p.name s.spec.name x) : c.Separate s := by
  intro q ys hq hys
  rw [hp] at hq
  cases hq
  rw [hxs] at hys
  cases hys
  exact h

theorem Cluster.namesPipeline_like {s t : Stage} {c : Cluster} (h : t.Like s) :
    c.NamesPipeline t ↔ c.NamesPipeline s := by
  simp only [NamesPipeline, pipelineOf_like h, h.pipelineName]

theorem Cluster.UnderWay.namesPipeline {config : Config} {s t : Stage} {c c' : Cluster}
    (h : UnderWay config s c c') (ht : t.Like s) (hnames : c.NamesPipeline s) :
    c'.NamesPipeline t := by
  refine (namesPipeline_like ht).2 fun p hp => hnames p ?_
  rwa [h.pipelineOf] at hp

/-- What is stored at any time of the way is like the stage. -/
theorem Cluster.UnderWay.like_of_stored {config : Config} {s t : Stage} {c c' : Cluster}
    (h : UnderWay config s c c') (hs : c.stages.get? s.key = some s)
    (ht : c'.stages.get? s.key = some t) : t.Like s := by
  obtain ⟨u, hu, hlike⟩ := h.stored ⟨s, hs, .refl s⟩
  rw [ht] at hu
  cases hu
  exact hlike

namespace World

/-- The same world with no failures to come. -/
def quiet (w : World) : World :=
  { w with observed := { w.observed with cluster := w.cluster.calm, scripts := [] } }

theorem failsWith_quiet (w : World) : w.quiet.observed.FailsWith fun _ => False where
  scripted _ hs := absurd hs List.not_mem_nil
  stored _ ho := absurd ho List.not_mem_nil

/-- An attempt without failures succeeds when all that it depends on is in order, and then it ends
at its aim. -/
theorem quiet_reconcile {w : World} {key : ObjectKey} {s : Stage} (hc : w.cluster.calm.Coherent)
    (hs : w.cluster.stages.get? key = some s) (hlive : s.isBeingDeleted = false)
    (hnames : w.cluster.calm.NamesPipeline s) (now : Timestamp) :
    ((∃ a, w.quiet.answer now key = some (.ok a)) ↔ ∃ p, w.cluster.calm.Plans w.config s p) ∧
      ∀ p, w.cluster.calm.Plans w.config s p →
        (w.quiet.apply (.reconcile now key)).cluster.contents =
          w.cluster.contents.aim w.config s p := by
  obtain rfl : s.key = key := hc.stages key s hs
  obtain ⟨r, hr, heffect⟩ := ObservedCluster.reconcile_of_ensures w.failsWith_quiet (s := s) hs
    (Stage.ensures_reconcile w.config now hc hs hlive hnames)
  have hanswer : w.quiet.answer now s.key = some r := hr
  have hno : ¬ ∃ e : Error, False := by simp
  constructor
  · rw [hanswer]
    constructor
    · rintro ⟨a, ha⟩
      obtain ⟨p, hp, -⟩ := (heffect.success a (Option.some.inj ha)).resolve_left hno
      exact ⟨p, hp⟩
    · rintro ⟨p, hp⟩
      cases r with
      | ok a => exact ⟨a, rfl⟩
      | error e => exact absurd hp ((heffect.failure e rfl).resolve_left hno p)
  · intro p hp
    cases r with
    | error e => exact absurd hp ((heffect.failure e rfl).resolve_left hno p)
    | ok a =>
        obtain ⟨q, hq, hcontents⟩ := (heffect.success a rfl).resolve_left hno
        rw [hp.publishes.unique hq.publishes]
        exact hcontents

/-- Attempts of all sorts stay on the way that an attempt without failures takes. -/
theorem attempts_underWay {w : World} {s : Stage} (hc : w.cluster.calm.Coherent)
    (hs : w.cluster.stages.get? s.key = some s) (hlive : s.isBeingDeleted = false)
    (hnames : w.cluster.calm.NamesPipeline s) (hseparate : w.cluster.calm.Separate s)
    {steps : List Step} (hsteps : ∀ step ∈ steps, step.IsAttempt (fun _ => True) s.key) :
    (w.run steps).cluster.calm.Coherent ∧
      UnderWay w.config s w.cluster.calm (w.run steps).cluster.calm ∧
        (w.run steps).config = w.config := by
  have hfails : w.observed.FailsWith fun _ => True := ⟨fun _ _ => trivial, fun _ _ => trivial⟩
  obtain ⟨⟨hc', hway⟩, -, hconfig⟩ := attempts_keep
    (I := fun c => c.Coherent ∧ UnderWay w.config s w.cluster.calm c) (fun _ => trivial) hfails
    (fun now c t hI ht => by
      obtain ⟨hc, hway⟩ := hI
      have hlike : t.Like s := hway.like_of_stored hs ht
      have hnames' : c.NamesPipeline t := hway.namesPipeline hlike hnames
      refine ((Stage.ensures_reconcile w.config now hc (hlike.key ▸ ht)
        (hlike.isBeingDeleted.trans hlive) hnames').and (hc.ensures _)).mono ?_
      rintro r c' ⟨heffect, hc'⟩
      have hway' := heffect.underWay ((separate_like hlike).2 (hway.separate hseparate))
      exact ⟨hc', hway.trans (hway'.like hlike)⟩)
    ⟨hc, .refl w.config s _⟩ hsteps
  exact ⟨hc', hway, hconfig⟩

/-- **Interruptions leave no trace.** The stored copy of a live stage is reconciled any number of
times, and any requests of it may fail in any way. Then an attempt without failures succeeds if and
only if it would have at the start, and it ends with the same contents. The pipeline has a name, and
no input of it is a stream that the stage publishes in. -/
theorem retries_end_alike {w : World} (hw : w.cluster.Reachable) {key : ObjectKey} {s : Stage}
    (hs : w.cluster.stages.get? key = some s) (hlive : s.isBeingDeleted = false)
    (hnamed : ∀ p, w.cluster.pipelineOf s = .ok p → p.metadata.name.isSome = true)
    (hseparate : w.cluster.Separate s) {steps : List Step}
    (hsteps : ∀ step ∈ steps, step.IsAttempt (fun _ => True) key) (now now' : Timestamp) :
    let retried := (w.run steps).quiet
    ((∃ a, retried.answer now' key = some (.ok a)) ↔
      ∃ a, w.quiet.answer now key = some (.ok a)) ∧
    ((∃ a, w.quiet.answer now key = some (.ok a)) →
      let last := retried.apply (.reconcile now' key)
      last.cluster.contents = (w.quiet.apply (.reconcile now key)).cluster.contents ∧
        ∃ p t, w.cluster.pipelineOf s = .ok p ∧ last.cluster.stages.get? key = some t ∧
          t.Provisioned p) := by
  intro retried
  obtain rfl : s.key = key := hw.coherent.stages key s hs
  have hc : w.cluster.calm.Coherent := hw.coherent.calm
  have hnames : w.cluster.calm.NamesPipeline s := hc.namesPipeline hnamed
  have hseparate : w.cluster.calm.Separate s := separate_calm.2 hseparate
  obtain ⟨hc', hway, hconfig⟩ := attempts_underWay hc hs hlive hnames hseparate hsteps
  obtain ⟨t, ht, hlike⟩ := hway.stored ⟨s, hs, .refl s⟩
  -- Both attempts without failures succeed by the same plans, and each plan has one aim on the way.
  obtain ⟨hclean, haim⟩ := quiet_reconcile hc hs hlive hnames now
  obtain ⟨hclean', haim'⟩ := quiet_reconcile hc' ht (hlike.isBeingDeleted.trans hlive)
    (hway.namesPipeline hlike hnames) now'
  have hplans (p : Plan) :
      (w.run steps).cluster.calm.Plans (w.run steps).config t p ↔
        w.cluster.calm.Plans w.config s p := by
    rw [hconfig, plans_like hlike]
    exact hway.plans p
  constructor
  · rw [hclean, hclean']
    exact exists_congr hplans
  · intro hok last
    obtain ⟨p, hp⟩ := hclean.1 hok
    have hcontents : last.cluster.contents = w.cluster.contents.aim w.config s p := by
      rw [haim' p ((hplans p).2 hp), hconfig, hlike.aim]
      exact hway.aim p hp
    refine ⟨hcontents.trans (haim p hp).symm, p.pipeline, ?_⟩
    have hstage : last.cluster.contents.stages s.key = some (s.content.settled p.pipeline) := by
      rw [hcontents]
      exact (Table.alter_self ..).trans
        (congrArg (Option.map (Stage.settled p.pipeline)) (Objects.seen_of_stored hs))
    obtain ⟨u, hu, hcontent⟩ := Option.map_eq_some_iff.1 hstage
    exact ⟨u, hp.pipeline, hu, Stage.provisioned_of_content hcontent⟩

open Sample in
/-- The second of two interrupted attempts fails later than the first. -/
theorem retries_end_alike_failing_twice :
    let w := ({} : World).run (arranging ++ [.insertStage (stage "dev" 0)])
    let last := (w.run failingToPublish).quiet.apply (.reconcile .epoch (key "dev"))
    last.cluster.contents = (w.quiet.apply (.reconcile .epoch (key "dev"))).cluster.contents ∧
      ∃ p t, last.cluster.stages.get? (key "dev") = some t ∧ t.Provisioned p := by
  intro w last
  have hw : w.cluster.Reachable := reachable_run _
  let s : Stage := Resource.stored (stage "dev" 0) "edp" (Cluster.versionText 4)
  let p : Pipeline := Resource.stored pipeline "edp" (Cluster.versionText 1)
  have hs : w.cluster.stages.get? (key "dev") = some s := by decide +kernel
  have hp : w.cluster.pipelineOf s = .ok p := by decide +kernel
  have hxs : w.cluster.codebases s p = .ok ["app"] := by decide +kernel
  have hnamed (q : Pipeline) (hq : w.cluster.pipelineOf s = .ok q) :
      q.metadata.name.isSome = true := by
    rw [hp] at hq
    cases hq
    rfl
  have hseparate : w.cluster.Separate s := Cluster.separate_of_found hp hxs (by decide)
  have hsteps : ∀ step ∈ failingToPublish, step.IsAttempt (fun _ => True) (key "dev") := by
    simp [failingToPublish, Step.IsAttempt]
  have hclean : ∃ a, w.quiet.answer .epoch (key "dev") = some (.ok a) :=
    ⟨.awaitChange, by decide +kernel⟩
  obtain ⟨-, hend⟩ := retries_end_alike hw hs rfl hnamed hseparate hsteps .epoch .epoch
  obtain ⟨hcontents, p, t, -, ht, hprovisioned⟩ := hend hclean
  exact ⟨hcontents, p, t, ht, hprovisioned⟩

open Sample in
/-- A pipeline without a name is lost to the stage that belongs to it: the first attempt writes an
owner that no later one finds. -/
theorem retries_end_otherwise_without_name :
    let w := ({} : World).run arrangingUnnamed
    let retried := (w.run failingAtTarget).quiet
    (∃ s, w.cluster.stages.get? (key "dev") = some s ∧ s.isBeingDeleted = false ∧
      w.cluster.Separate s) ∧
    (∀ step ∈ failingAtTarget, step.IsAttempt (fun _ => True) (key "dev")) ∧
    (∃ a, w.quiet.answer .epoch (key "dev") = some (.ok a)) ∧
    ¬ ∃ a, retried.answer .epoch (key "dev") = some (.ok a) := by
  intro w retried
  let s : Stage := Resource.stored { stage "dev" 0 with spec.pipeline := "" } "edp"
    (Cluster.versionText 4)
  let p : Pipeline :=
    Resource.stored { pipeline with metadata := { generateName := some "mobile" } } "edp"
      (Cluster.versionText 1)
  have hs : w.cluster.stages.get? (key "dev") = some s := by decide +kernel
  have hp : w.cluster.pipelineOf s = .ok p := by decide +kernel
  have hxs : w.cluster.codebases s p = .ok ["app"] := by decide +kernel
  refine ⟨⟨s, hs, rfl, Cluster.separate_of_found hp hxs (by decide)⟩, ?_, ?_, ?_⟩
  · simp [failingAtTarget, Step.IsAttempt]
  · exact ⟨.awaitChange, by decide +kernel⟩
  · rintro ⟨a, ha⟩
    have hlost : retried.answer .epoch (key "dev") =
        some (.error (.notFound "CDPipeline" "edp" "mobile")) := by decide +kernel
    rw [hlost] at ha
    cases ha

end World

end Conveyor
