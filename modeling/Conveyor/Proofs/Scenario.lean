import Conveyor.Proofs.Reachable

/-!
Runs of the operator beside a cluster, step by step: objects are put in, deletions and failures are
asked for, the configuration changes, and every now and then a stored stage is reconciled. Steps
come in any order. What holds of all reachable clusters holds after every run
(`World.reachable_run`).
-/

namespace Conveyor

namespace ObservedCluster

variable {α : Type}

/-- Reconciles the stored copy of a stage. Where none is stored, nothing is done. -/
def reconcile (config : Config) (now : Timestamp) (key : ObjectKey) (o : ObservedCluster) :
    Option (Except Error Action) × ObservedCluster :=
  match o.cluster.stages.get? key with
  | none => (none, o)
  | some s =>
    let (result, o) := (s.reconcile config now).run client o
    (some result, o)

theorem reconcile_of_stored {config : Config} {now : Timestamp} {key : ObjectKey}
    {o : ObservedCluster} {s : Stage} (h : o.cluster.stages.get? key = some s) :
    o.reconcile config now key =
      (some ((s.reconcile config now).run client o).1,
        ((s.reconcile config now).run client o).2) := by
  simp only [reconcile, h]

theorem reconcile_of_absent {config : Config} {now : Timestamp} {key : ObjectKey}
    {o : ObservedCluster} (h : o.cluster.stages.get? key = none) :
    o.reconcile config now key = (none, o) := by
  simp only [reconcile, h]

/-- What reconciling a stage ensures holds of the reconcile of its stored copy. -/
theorem reconcile_of_ensures {config : Config} {now : Timestamp} {key : ObjectKey}
    {o : ObservedCluster} {s : Stage} {F : Error → Prop}
    {Q : Except Error Action → Cluster → Prop} (ho : o.FailsWith F)
    (hs : o.cluster.stages.get? key = some s)
    (h : (s.reconcile config now).Ensures F o.cluster.calm Q) :
    ∃ r, (o.reconcile config now key).1 = some r ∧
      Q r (o.reconcile config now key).2.cluster.calm := by
  rw [reconcile_of_stored hs]
  exact ⟨_, rfl, run_of_ensures ho h⟩

/-- Whether a request reaches the cluster or not, the cluster stays a reachable one. -/
theorem reachable_answer (r : Request) {o : ObservedCluster} (h : o.cluster.Reachable) :
    (o.answer r).2.cluster.Reachable := by
  unfold answer
  dsimp only
  split
  · exact h
  · exact h.answer r

theorem reachable_run (p : Session α) {o : ObservedCluster} (h : o.cluster.Reachable) :
    (p.run client o).2.cluster.Reachable := by
  induction p generalizing o with
  | done result => exact h
  | call r next ih => exact ih _ (reachable_answer r h)
  | announce n next ih => exact ih (o := o.publish n) h

/-- The failures that are to come never become others. -/
theorem failsWith_run {F : Error → Prop} (p : Session α) {o : ObservedCluster}
    (h : o.FailsWith F) : (p.run client o).2.FailsWith F := by
  induction p generalizing o with
  | done result => exact h
  | call r next ih => exact ih _ (answer_cases r h).1
  | announce n next ih => exact ih (o := o.publish n) ⟨h.scripted, h.stored⟩

theorem failsWith_reconcile {F : Error → Prop} (config : Config) (now : Timestamp)
    (key : ObjectKey) {o : ObservedCluster} (h : o.FailsWith F) :
    (o.reconcile config now key).2.FailsWith F := by
  cases hs : o.cluster.stages.get? key with
  | none => rwa [reconcile_of_absent hs]
  | some s =>
      rw [reconcile_of_stored hs]
      exact failsWith_run _ h

theorem reachable_reconcile (config : Config) (now : Timestamp) (key : ObjectKey)
    {o : ObservedCluster} (h : o.cluster.Reachable) :
    (o.reconcile config now key).2.cluster.Reachable := by
  cases hs : o.cluster.stages.get? key with
  | none => rwa [reconcile_of_absent hs]
  | some s =>
      rw [reconcile_of_stored hs]
      exact reachable_run _ h

end ObservedCluster

/-- The operator's configuration and the cluster it works on. -/
structure World where
  observed : ObservedCluster := {}
  config : Config := {}

inductive Step where
  | insertStage (s : Stage)
  | insertPipeline (namespaceName : String) (p : Pipeline)
  | insertComponent (namespaceName : String) (o : Component)
  | insertImageStream (namespaceName : String) (s : ImageStream)
  | insertRole (namespaceName : String) (r : Role)
  | insertNamespace (name : String)
  /-- Asks for the deletion of a stored stage. -/
  | markDeleting (now : Timestamp) (key : ObjectKey)
  /-- Lets the next request of an operation fail. -/
  | failNext (o : Operation)
  | script (f : FaultScript)
  | setConfig (config : Config)
  | reconcile (now : Timestamp) (key : ObjectKey)

namespace World

/-- The objects and counters of the cluster. -/
def cluster (w : World) : Cluster := w.observed.cluster

def arrange (f : Cluster → Cluster) (w : World) : World :=
  { w with observed := w.observed.arrange f }

/-- The answer to a reconcile of a stored stage. -/
def answer (now : Timestamp) (key : ObjectKey) (w : World) : Option (Except Error Action) :=
  (w.observed.reconcile w.config now key).1

def apply (w : World) : Step → World
  | .insertStage s => w.arrange (·.insertStage s)
  | .insertPipeline namespaceName p => w.arrange (·.insert Cluster.pipelineShelf namespaceName p)
  | .insertComponent namespaceName o => w.arrange (·.insert Cluster.componentShelf namespaceName o)
  | .insertImageStream namespaceName s =>
    w.arrange (·.insert Cluster.imageStreamShelf namespaceName s)
  | .insertRole namespaceName r => w.arrange (·.insert Cluster.roleShelf namespaceName r)
  | .insertNamespace name => w.arrange (·.insertNamespace name)
  | .markDeleting now key =>
    match w.cluster.stages.get? key with
    | none => w
    | some s => w.arrange (·.markDeleting now s)
  | .failNext o => w.arrange (·.failNext o)
  | .script f => { w with observed := { w.observed with scripts := w.observed.scripts ++ [f] } }
  | .setConfig config => { w with config }
  | .reconcile now key => { w with observed := (w.observed.reconcile w.config now key).2 }

/-- The world after steps that are taken one after the other. -/
def run (w : World) (steps : List Step) : World := steps.foldl apply w

theorem reachable_apply {w : World} (h : w.cluster.Reachable) (step : Step) :
    (w.apply step).cluster.Reachable := by
  cases step with
  | insertStage s => exact h.insertStage s
  | insertPipeline namespaceName p => exact h.insertPipeline namespaceName p
  | insertComponent namespaceName o => exact h.insertComponent namespaceName o
  | insertImageStream namespaceName s => exact h.insertImageStream namespaceName s
  | insertRole namespaceName r => exact h.insertRole namespaceName r
  | insertNamespace name => exact h.insertNamespace name
  | markDeleting now key =>
      simp only [apply]
      split
      · exact h
      · exact h.insertStage _
  | failNext o => exact h.failNext o
  | script f => exact h
  | setConfig config => exact h
  | reconcile now key => exact ObservedCluster.reachable_reconcile w.config now key h

/-- Steps lead from reachable clusters to reachable clusters. -/
theorem reachable_run_of {w : World} (h : w.cluster.Reachable) (steps : List Step) :
    (w.run steps).cluster.Reachable := by
  induction steps generalizing w with
  | nil => exact h
  | cons step steps ih => exact ih (reachable_apply h step)

theorem reachable_run (steps : List Step) : (({} : World).run steps).cluster.Reachable :=
  reachable_run_of (w := {}) .empty steps

/-- Without failures to come, what reconciling a stage ensures holds of the reconcile of its stored
copy, and there are still no failures to come. -/
theorem answer_of_ensures {w : World} (hw : w.observed.FailsWith NoFailure) {now : Timestamp}
    {key : ObjectKey} {s : Stage} {Q : Except Error Action → Cluster → Prop}
    (hs : w.cluster.stages.get? key = some s)
    (h : (s.reconcile w.config now).Ensures NoFailure w.cluster Q) :
    (w.apply (.reconcile now key)).observed.FailsWith NoFailure ∧
      ∃ r, w.answer now key = some r ∧ Q r (w.apply (.reconcile now key)).cluster := by
  have hafter := ObservedCluster.failsWith_reconcile w.config now key hw
  have hcalm : w.cluster.calm = w.cluster := hw.calm_eq
  rw [← hcalm] at h
  obtain ⟨r, hr, hQ⟩ := ObservedCluster.reconcile_of_ensures hw hs h
  rw [hafter.calm_eq] at hQ
  exact ⟨hafter, r, hr, hQ⟩

end World

/-! ### Attempts

A stage is left to the operator when nothing but its own reconciles goes on, with failures of all
sorts in between. -/

/-- The step is a reconcile of the stage, or it arranges for a failure. -/
def Step.IsAttempt (F : Error → Prop) (key : ObjectKey) : Step → Prop
  | .failNext _ => True
  | .script f => F f.error
  | .reconcile _ k => k = key
  | _ => False

namespace World

variable {F : Error → Prop} {key : ObjectKey} {I : Cluster → Prop}

theorem attempt_keeps (hF : ∀ o, F (Cluster.injectedFault o)) {w : World}
    (hw : w.observed.FailsWith F)
    (reconcile : ∀ now c s, I c → c.stages.get? key = some s →
      (s.reconcile w.config now).Ensures F c fun _ c' => I c')
    (start : I w.cluster.calm) {step : Step} (hstep : step.IsAttempt F key) :
    I (w.apply step).cluster.calm ∧ (w.apply step).observed.FailsWith F ∧
      (w.apply step).config = w.config := by
  cases step with
  | failNext o =>
      have hcalm : (w.cluster.failNext o).calm = w.cluster.calm := by
        unfold Cluster.failNext
        split <;> rfl
      refine ⟨hcalm ▸ start, ⟨hw.scripted, fun op _ => hF op⟩, rfl⟩
  | script f =>
      refine ⟨start, ⟨fun g hg => ?_, hw.stored⟩, rfl⟩
      rcases List.mem_append.1 hg with hg | hg
      · exact hw.scripted g hg
      · exact List.mem_singleton.1 hg ▸ hstep
  | reconcile now k =>
      obtain rfl : k = key := hstep
      refine ⟨?_, ObservedCluster.failsWith_reconcile w.config now k hw, rfl⟩
      cases hs : w.cluster.stages.get? k with
      | none =>
          simp only [apply, cluster, ObservedCluster.reconcile_of_absent hs]
          exact start
      | some s =>
          obtain ⟨r, -, h⟩ := ObservedCluster.reconcile_of_ensures hw hs
            (reconcile now w.cluster.calm s start hs)
          exact h
  | _ => exact hstep.elim

/-- What a reconcile of any of the stages keeps, whatever fails in it, is kept by any number of
attempts at them. -/
theorem attempts_among_keep {keys : List ObjectKey} (hF : ∀ o, F (Cluster.injectedFault o))
    {w : World} (hw : w.observed.FailsWith F)
    (reconcile : ∀ key ∈ keys, ∀ now c s, I c → c.stages.get? key = some s →
      (s.reconcile w.config now).Ensures F c fun _ c' => I c')
    (start : I w.cluster.calm) {steps : List Step}
    (h : ∀ step ∈ steps, ∃ key ∈ keys, step.IsAttempt F key) :
    I (w.run steps).cluster.calm ∧ (w.run steps).observed.FailsWith F ∧
      (w.run steps).config = w.config := by
  induction steps generalizing w with
  | nil => exact ⟨start, hw, rfl⟩
  | cons step steps ih =>
      obtain ⟨⟨key, hkey, hstep⟩, hsteps⟩ := List.forall_mem_cons.1 h
      obtain ⟨hI, hfails, hconfig⟩ := attempt_keeps hF hw (reconcile key hkey) start hstep
      obtain ⟨hI', hfails', hconfig'⟩ := ih hfails (hconfig.symm ▸ reconcile) hI hsteps
      exact ⟨hI', hfails', hconfig'.trans hconfig⟩

/-- What a reconcile of the stage keeps, whatever fails in it, is kept by any number of attempts. -/
theorem attempts_keep (hF : ∀ o, F (Cluster.injectedFault o)) {w : World}
    (hw : w.observed.FailsWith F)
    (reconcile : ∀ now c s, I c → c.stages.get? key = some s →
      (s.reconcile w.config now).Ensures F c fun _ c' => I c')
    (start : I w.cluster.calm) {steps : List Step} (h : ∀ step ∈ steps, step.IsAttempt F key) :
    I (w.run steps).cluster.calm ∧ (w.run steps).observed.FailsWith F ∧
      (w.run steps).config = w.config := by
  refine attempts_among_keep hF hw (fun k (hk : k ∈ [key]) => ?_) start fun step hstep => ?_
  · obtain rfl := List.mem_singleton.1 hk
    exact reconcile
  · exact ⟨key, List.mem_singleton_self key, h step hstep⟩

end World

/-! ### A pipeline of one input

Concrete runs, here and in the files to come, are about stages of this pipeline. -/

namespace Sample

def pipeline : Pipeline where
  metadata := .named "mobile"
  spec := { name := "mobile", inputStreams := ["app-main"] }

def registry : Component := ⟨.named Component.registryName, { url := "registry" }⟩

def source : ImageStream := ⟨.named "app-main", { codebase := "app" }⟩

def stage (name : String) (order : Int) : Stage where
  metadata := { name := some name, namespaceName := some "edp" }
  spec := { name, pipeline := "mobile", order }

def key (name : String) : ObjectKey := ⟨"edp", name⟩

/-- An owner that is no pipeline. -/
def team (controller : Bool) : OwnerReference where
  apiVersion := "v1"
  blockOwnerDeletion := none
  controller := some controller
  kind := "Team"
  name := "web"
  uid := "7"

/-- What has to be there before stages can be provisioned. -/
def arranging : List Step :=
  [.insertPipeline "edp" pipeline, .insertComponent "edp" registry, .insertImageStream "edp" source]

/-- Two stages, the second one after the first. -/
def twoStages : List Step :=
  arranging ++ [.insertStage (stage "dev" 0), .insertStage (stage "qa" 1)]

/-- Two stages are provisioned, and then the deletion of both is asked for. -/
def twoStagesLeaving : List Step :=
  arranging ++
    [.insertStage (stage "dev" 0), .insertStage (stage "qa" 1), .reconcile .epoch (key "dev"),
      .reconcile .epoch (key "qa"), .markDeleting .epoch (key "dev"),
      .markDeleting .epoch (key "qa")]

/-- A stage is provisioned from a stream that has its label, and then its deletion is asked for. -/
def stageLeaving : List Step :=
  arranging ++
    [.insertImageStream "edp"
        { source with metadata.labels := some (.singleton "mobile/dev" "") },
      .insertStage (stage "dev" 0), .reconcile .epoch (key "dev"),
      .markDeleting .epoch (key "dev")]

/-- A stage whose pipeline is not there fails. -/
def strayStage : List Step := [.insertStage (stage "dev" 0), .reconcile .epoch (key "dev")]

/-- A stage whose pipeline is not there gets no further than the finalizer, and then its deletion is
asked for. -/
def strayStageLeaving : List Step :=
  [.insertStage (stage "dev" 0), .reconcile .epoch (key "dev"), .markDeleting .epoch (key "dev")]

/-- A stage of a pipeline without inputs is to go. -/
def leavingWithoutInputs : List Step :=
  [.insertPipeline "edp" { pipeline with spec.inputStreams := [] },
    .insertStage { stage "dev" 0 with metadata.finalizers := some [Stage.finalizer] },
    .markDeleting .epoch (key "dev")]

/-- Two stages of a pipeline that is stored without a name are to go. -/
def leavingUnnamed : List Step :=
  [.insertPipeline "edp" { pipeline with metadata := { generateName := some "mobile" } },
    .insertImageStream "edp" source,
    .insertImageStream "edp" ⟨.named "mobile-dev-app-verified", { codebase := "app" }⟩,
    .insertImageStream "edp" ⟨.named "mobile-qa-app-verified", { codebase := "app" }⟩,
    .insertStage
      { stage "dev" 0 with
        metadata.finalizers := some [Stage.finalizer]
        spec.pipeline := "" },
    .insertStage
      { stage "qa" 1 with
        metadata.finalizers := some [Stage.finalizer]
        spec.pipeline := "" },
    .markDeleting .epoch (key "dev"), .markDeleting .epoch (key "qa")]

/-- Two stages of different namespaces are provisioned into targets of one name, and then the
deletion of the second is asked for. -/
def crossedTargetsLeaving : List Step :=
  [.setConfig { platform := .kubernetes }] ++ arranging ++
    [.insertPipeline "edp-dev" pipeline, .insertComponent "edp-dev" registry,
      .insertImageStream "edp-dev" source, .insertStage (stage "dev-qa" 0),
      .insertStage { stage "qa" 0 with metadata.namespaceName := some "edp-dev" },
      .reconcile .epoch (key "dev-qa"), .reconcile .epoch ⟨"edp-dev", "qa"⟩,
      .markDeleting .epoch ⟨"edp-dev", "qa"⟩]

/-- A stage is to be provisioned into the namespace of another one, which is to go. -/
def neighbours : List Step :=
  [.setConfig { platform := .kubernetes }] ++ arranging ++
    [.insertPipeline "edp-dev" pipeline, .insertComponent "edp-dev" registry,
      .insertImageStream "edp-dev" source, .insertStage (stage "dev" 0),
      .insertStage { stage "qa" 0 with metadata.namespaceName := some "edp-dev" },
      .reconcile .epoch ⟨"edp-dev", "qa"⟩, .markDeleting .epoch ⟨"edp-dev", "qa"⟩]

/-- Two attempts, the first of which fails at a verified stream and the second at the job. -/
def failingToPublish : List Step :=
  [.failNext .createImageStream, .reconcile .epoch (key "dev"), .failNext .createReleaseJob,
    .reconcile .epoch (key "dev")]

/-- Three inputs about two codebases, and one of them is the stream that the stage publishes the
other codebase in. -/
def arrangingCrossed : List Step :=
  [.insertPipeline "edp"
      { pipeline with
        spec.inputStreams := ["app-main", "app-release", "mobile-dev-app-verified"] },
    .insertComponent "edp" registry, .insertImageStream "edp" source,
    .insertImageStream "edp" { source with metadata := .named "app-release" },
    .insertImageStream "edp" ⟨.named "mobile-dev-app-verified", { codebase := "library" }⟩,
    .insertStage (stage "dev" 0)]

/-- A stage of a pipeline that is stored without a name. -/
def arrangingUnnamed : List Step :=
  [.setConfig { platform := .kubernetes },
    .insertPipeline "edp" { pipeline with metadata := { generateName := some "mobile" } },
    .insertComponent "edp" registry, .insertImageStream "edp" source,
    .insertStage { stage "dev" 0 with spec.pipeline := "" }]

/-- Three stages of a pipeline that is stored without a name. -/
def threeStagesUnnamed : List Step :=
  arrangingUnnamed ++
    [.insertStage { stage "qa" 1 with spec.pipeline := "" },
      .insertStage { stage "prod" 2 with spec.pipeline := "" }]

/-- The first stage publishes `qa-app` where the second one publishes `app`. -/
def arrangingDashed : List Step :=
  [.insertPipeline "edp" { pipeline with spec.inputStreams := ["app-main", "qa-app-main"] },
    .insertComponent "edp" registry, .insertImageStream "edp" source,
    .insertImageStream "edp" ⟨.named "qa-app-main", { codebase := "qa-app" }⟩,
    .insertStage (stage "dev" 0), .insertStage (stage "dev-qa" 0)]

/-- The stages of two pipelines, the second of which begins where the first one publishes. -/
def arrangingChained : List Step :=
  arranging ++
    [.insertPipeline "edp"
        { metadata := .named "web"
          spec := { name := "web", inputStreams := ["mobile-dev-app-verified"] } },
      .insertStage (stage "dev" 0), .insertStage { stage "site" 0 with spec.pipeline := "web" }]

/-- What the second pipeline begins with is there already, about another codebase. -/
def arrangingHanded : List Step :=
  arrangingChained ++
    [.insertImageStream "edp" ⟨.named "mobile-dev-app-verified", { codebase := "library" }⟩]

/-- A stage of a pipeline that is stored without a name, beside another one of that name. -/
def arrangingNamesakes : List Step :=
  arranging ++
    [.insertPipeline "edp"
        { metadata := { generateName := some "mobile" }
          spec := { name := "mobile", inputStreams := ["library-main"] } },
      .insertImageStream "edp" ⟨.named "library-main", { codebase := "library" }⟩,
      .insertStage { stage "dev" 0 with spec.pipeline := "" }, .insertStage (stage "qa" 0)]

/-- A stage whose target is refused as one that is there, which it is not. -/
def arrangingRefused : List Step :=
  arranging ++
    [.insertStage (stage "dev" 0),
      .script
        { operation := .createProject
          error := .alreadyExists Kind.projectRequest.name "edp-dev"
          skip := 0
          times := 1 }]

/-- One stream is the input twice. -/
def arrangingRepeated : List Step :=
  [.insertPipeline "edp" { pipeline with spec.inputStreams := ["app-main", "app-main"] },
    .insertComponent "edp" registry, .insertImageStream "edp" source,
    .insertStage (stage "dev" 0)]

/-- Three inputs, the first two of them about one codebase. The second stream that the stage makes
for them fails. -/
def arrangingThree : List Step :=
  [.insertPipeline "edp"
      { pipeline with spec.inputStreams := ["app-main", "app-release", "library-main"] },
    .insertComponent "edp" registry, .insertImageStream "edp" source,
    .insertImageStream "edp" ⟨.named "app-release", { codebase := "app" }⟩,
    .insertImageStream "edp" ⟨.named "library-main", { codebase := "library" }⟩,
    .script
      { operation := .createImageStream
        error := Cluster.injectedFault .createImageStream
        skip := 1
        times := 1 }]

/-- Attempts at two stages. The first stage gets no further than its stream, and the second one
fails at the job before all goes well. -/
def failingToPromote : List Step :=
  failingToPublish ++
    [.failNext .createReleaseJob, .reconcile .epoch (key "qa"), .reconcile .epoch (key "qa")]

/-- The first stage and the last one of three go well, and then the one between them fails at the
target. -/
def passingOver : List Step :=
  [.reconcile .epoch (key "dev"), .reconcile .epoch (key "prod"), .failNext .createNamespace,
    .reconcile .epoch (key "qa")]

/-- One attempt, which fails at the target. -/
def failingAtTarget : List Step :=
  [.failNext .createNamespace, .reconcile .epoch (key "dev")]

/-- Two attempts, the first of which fails at a stream and the second at the target. -/
def failingTwice : List Step :=
  [.failNext .replaceImageStream, .reconcile .epoch (key "dev"), .failNext .deleteProject,
    .reconcile .epoch (key "dev")]

end Sample

end Conveyor
