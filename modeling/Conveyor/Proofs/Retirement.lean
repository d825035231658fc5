import Conveyor.Proofs.Deletion
import Conveyor.Proofs.History

/-!
The cleanup of a stage under deletion, under faults: what it does to the streams that the stage
consumes, to the target namespace, and last to the stage itself.

A stream is written at most once and in one piece, so after any part of the cleanup a consumed
stream is what it was or it is retired (`Retires`). That is a relation of the streams before to the
streams after, and it is transitive because a retired stream is in no need of retiring.
-/

namespace Conveyor

open Session
open Promotion (Consumed)
open EnvironmentHistory (IsEntry)

namespace Cluster

/-- What the deletion of a stage retires: its environment, and the streams to retire it from. -/
def retirement (s : Stage) (c : Cluster) : Except Error (String × List Consumed) := do
  let pipeline ← c.pipelineOf s
  let ds ← c.consumed s pipeline
  .ok (s.environmentLabel pipeline.spec.name, ds)

theorem retirement_eq_ok {s : Stage} {c : Cluster} {env : String} {ds : List Consumed} :
    c.retirement s = .ok (env, ds) ↔ ∃ pipeline, c.pipelineOf s = .ok pipeline ∧
      c.consumed s pipeline = .ok ds ∧ env = s.environmentLabel pipeline.spec.name := by
  simp only [retirement, bind_eq_ok, Except.ok.injEq, Prod.mk.injEq]
  refine exists_congr fun pipeline => and_congr_right fun _ => ?_
  constructor
  · rintro ⟨ds, hds, rfl, rfl⟩
    exact ⟨hds, rfl⟩
  · rintro ⟨hds, rfl⟩
    exact ⟨ds, hds, rfl, rfl⟩

/-- Nothing but pipelines, stages and streams decides what is retired. -/
theorem retirement_congr {s : Stage} {c c' : Cluster} (hpipelines : c'.pipelines = c.pipelines)
    (hstages : c'.stages = c.stages) (hstreams : c'.imageStreams = c.imageStreams) :
    c'.retirement s = c.retirement s := by
  simp only [retirement, pipelineOf, hpipelines, consumed, predecessor?, predecessor, siblings,
    stagesOf, hstages, consumedForAll_congr hstreams]

/-- Nor does it matter what is to fail. -/
theorem retirement_calm (s : Stage) (c : Cluster) : c.calm.retirement s = c.retirement s :=
  retirement_congr rfl rfl rfl

/-- Every consumed stream lies where a write to it goes. -/
theorem Coherent.stored_of_mem_consumedForAll {c : Cluster} (hc : c.Coherent) {s : Stage}
    {pipeline : Pipeline} {predecessor : Option Stage} {inputs : List String} {ds : List Consumed}
    (h : c.consumedForAll s pipeline predecessor inputs = .ok ds) :
    ∀ d ∈ ds, c.imageStreams.get? (keyIn s.namespaceName d.stream) = some d.stream := by
  induction inputs generalizing ds with
  | nil =>
      cases h
      exact fun d hd => absurd hd List.not_mem_nil
  | cons input inputs ih =>
      obtain ⟨d, hd, rest, hrest, rfl⟩ := consumedForAll_cons_eq_ok.1 h
      refine List.forall_mem_cons.2 ⟨?_, ih hrest⟩
      obtain ⟨source, hsource, -, hstream⟩ := consumedFor_eq_ok.1 hd
      cases predecessor with
      | none =>
          rw [hstream, hc.imageStreams.keyIn_eq hsource]
          exact hsource
      | some p =>
          rw [hc.imageStreams.keyIn_eq hstream]
          exact hstream

theorem Coherent.stored_of_retirement {c : Cluster} (hc : c.Coherent) {s : Stage} {env : String}
    {ds : List Consumed} (h : c.retirement s = .ok (env, ds)) :
    ∀ d ∈ ds, c.imageStreams.get? (keyIn s.namespaceName d.stream) = some d.stream := by
  obtain ⟨pipeline, -, hds, -⟩ := retirement_eq_ok.1 h
  obtain ⟨names, -, predecessor, -, hall⟩ := consumed_eq_ok.1 hds
  exact hc.stored_of_mem_consumedForAll hall

end Cluster

/-! ### Streams before and after -/

/-- Streams at some of the keys have been retired, and no stream has changed otherwise. -/
def Retires (env : String) (K : ObjectKey → Prop) (before after : Objects ImageStream) : Prop :=
  ∀ k, after.get? k = before.get? k ∨
    K k ∧ ∃ x version, before.get? k = some x ∧ x.needsRetiring env = true ∧
      after.get? k = some (Resource.versioned (x.retire env) version)

/-- There is a stream at the key, and it needs no retiring. -/
def SettledAt (env : String) (streams : Objects ImageStream) (k : ObjectKey) : Prop :=
  ∃ x, streams.get? k = some x ∧ x.needsRetiring env = false

def Settled (env : String) (K : ObjectKey → Prop) (streams : Objects ImageStream) : Prop :=
  ∀ k, K k → SettledAt env streams k

theorem Retires.refl (env : String) (K : ObjectKey → Prop) (streams : Objects ImageStream) :
    Retires env K streams streams := fun _ => .inl rfl

/-- The version of a stream has no part in its history. -/
theorem ImageStream.needsRetiring_versioned (env : String) (s : ImageStream)
    (version : Option String) :
    (Resource.versioned s version).needsRetiring env = s.needsRetiring env := rfl

theorem Retires.trans {env : String} (henv : IsEntry env) {K : ObjectKey → Prop}
    {a b c : Objects ImageStream} (hab : Retires env K a b) (hbc : Retires env K b c) :
    Retires env K a c := by
  intro k
  rcases hbc k with hc | ⟨hK, y, version, hy, hneeds, hc⟩
  · rw [hc]
    exact hab k
  · rcases hab k with hb | ⟨-, x, version', -, -, hb⟩
    · exact .inr ⟨hK, y, version, hb ▸ hy, hneeds, hc⟩
    · rw [hb] at hy
      cases hy
      rw [ImageStream.needsRetiring_versioned, ImageStream.needsRetiring_retire henv] at hneeds
      cases hneeds

theorem Retires.mono {env : String} {K K' : ObjectKey → Prop} {a b : Objects ImageStream}
    (h : Retires env K a b) (hK : ∀ k, K k → K' k) : Retires env K' a b := by
  intro k
  exact (h k).imp_right (And.imp_left (hK k))

/-- A stream that needed no retiring, or has been retired, needs none. -/
theorem Retires.settled_at {env : String} (henv : IsEntry env) {K : ObjectKey → Prop}
    {before after : Objects ImageStream} (h : Retires env K before after) {k : ObjectKey}
    {x : ImageStream} (hx : before.get? k = some x) (hneeds : x.needsRetiring env = false) :
    SettledAt env after k := by
  rcases h k with hk | ⟨-, y, version, hy, -, hk⟩
  · exact ⟨x, hk.trans hx, hneeds⟩
  · exact ⟨_, hk, ImageStream.needsRetiring_retire henv y⟩

/-- The keys of the streams that a stage of a namespace consumes. -/
def Promotion.KeyOf (namespaceName : String) (ds : List Consumed) (k : ObjectKey) : Prop :=
  ∃ d ∈ ds, k = Cluster.keyIn namespaceName d.stream

/-! ### The sessions -/

namespace Retirement

variable {F : Error → Prop} {c : Cluster}

open Promotion (KeyOf)

/-- A cluster in which some streams have been retired and nothing else has happened. -/
structure After (c c' : Cluster) (env : String) (K : ObjectKey → Prop) : Prop where
  frame : ∃ streams n, c' = { c with imageStreams := streams, revision := n }
  streams : Retires env K c.imageStreams c'.imageStreams

theorem After.refl (c : Cluster) (env : String) (K : ObjectKey → Prop) : After c c env K :=
  ⟨⟨c.imageStreams, c.revision, rfl⟩, Retires.refl env K _⟩

theorem After.counted {c c' : Cluster} {env : String} {K : ObjectKey → Prop}
    (h : After c c' env K) : After c c'.counted env K := by
  obtain ⟨⟨streams, n, rfl⟩, hstreams⟩ := h
  exact ⟨⟨streams, n + 1, rfl⟩, hstreams⟩

/-- The write of a retired stream in the course of the cleanup. -/
theorem After.insert {c c' : Cluster} {env : String} {K : ObjectKey → Prop}
    (h : After c c' env K) {k : ObjectKey} {x : ImageStream}
    {version : Option String} (hK : K k) (hx : c.imageStreams.get? k = some x)
    (hneeds : x.needsRetiring env = true) :
    After c { c'.counted with
      imageStreams := c'.imageStreams.insert k (Resource.versioned (x.retire env) version) }
        env K := by
  obtain ⟨⟨streams, n, rfl⟩, hstreams⟩ := h
  refine ⟨⟨_, n + 1, rfl⟩, fun l => ?_⟩
  by_cases hl : l = k
  · subst hl
    exact .inr ⟨hK, x, version, hx, hneeds, Dict.get?_insert_self _ _ _⟩
  · have hkeep := Dict.get?_insert_of_ne streams (Resource.versioned (x.retire env) version) hl
    rcases hstreams l with hsame | ⟨hKl, y, v, hy, hy', hretired⟩
    · exact .inl (hkeep.trans hsame)
    · exact .inr ⟨hKl, y, v, hy, hy', hkeep.trans hretired⟩

/-- The round of one stream, which has been read before and may have been retired since. -/
theorem ensures_retireFrom {c' : Cluster} {env : String} {K : ObjectKey → Prop}
    (h : After c c' env K) {namespaceName : String} {x : ImageStream}
    (hK : K (Cluster.keyIn namespaceName x))
    (hx : c.imageStreams.get? (Cluster.keyIn namespaceName x) = some x) :
    (retireFrom namespaceName env x).Ensures F c' fun r c'' =>
      After c c'' env K ∧ (∀ k, k ≠ Cluster.keyIn namespaceName x →
        c''.imageStreams.get? k = c'.imageStreams.get? k) ∧
      (IsEntry env → r = .ok () →
        SettledAt env c''.imageStreams (Cluster.keyIn namespaceName x)) := by
  unfold retireFrom
  refine ensures_ite (fun hneeds => ?_) fun hneeds => ?_
  · refine ensures_requestFor.2 ⟨fun e _ => ?_, ?_⟩
    · exact ⟨h, fun _ _ => rfl, fun _ hr => absurd hr error_ne_ok⟩
    rcases Cluster.replace_cases Cluster.imageStreamShelf namespaceName (x.retire env) c' with
      ⟨e, hserve⟩ | hserve
    · simp only [Cluster.serve, hserve]
      exact ⟨h.counted, fun _ _ => rfl, fun _ hr => absurd hr error_ne_ok⟩
    · simp only [Cluster.serve, hserve]
      refine ⟨h.insert hK hx hneeds, fun k hk => Dict.get?_insert_of_ne _ _ hk, fun henv _ => ?_⟩
      exact ⟨_, Dict.get?_insert_self _ _ _, ImageStream.needsRetiring_retire henv x⟩
  · refine ⟨h, fun _ _ => rfl, fun henv _ => ?_⟩
    exact h.streams.settled_at henv hx (by simpa using hneeds)

/-- The loop over all consumed streams. What is behind it is settled, if the environment can be an
entry of a history at all. -/
theorem ensures_each_retireFrom {env namespaceName : String} {ds : List Consumed}
    (hds : ∀ d ∈ ds, c.imageStreams.get? (Cluster.keyIn namespaceName d.stream) = some d.stream) :
    (each ds fun d => retireFrom namespaceName env d.stream).Ensures F c fun r c' =>
      After c c' env (KeyOf namespaceName ds) ∧
        (IsEntry env → r = .ok () → Settled env (KeyOf namespaceName ds) c'.imageStreams) := by
  refine ensures_each (I := fun rest c' => After c c' env (KeyOf namespaceName ds) ∧
    (∀ d ∈ rest, d ∈ ds) ∧ (IsEntry env → ∀ d ∈ ds, d ∈ rest ∨
      SettledAt env c'.imageStreams (Cluster.keyIn namespaceName d.stream))) ?round ?stop
    ⟨After.refl c env _, fun d hd => hd, fun _ d hd => .inl hd⟩
  case round =>
    rintro a rest c' ⟨hafter, hrest, hdone⟩
    obtain ⟨ha, hrest⟩ := List.forall_mem_cons.1 hrest
    refine (ensures_retireFrom hafter ⟨a, ha, rfl⟩ (hds a ha)).mono ?_
    rintro r c'' ⟨hafter', hother, hsettled⟩
    cases r with
    | error e => exact ⟨hafter', fun _ hr => absurd hr error_ne_ok⟩
    | ok u =>
        refine ⟨hafter', hrest, fun henv d hd => ?_⟩
        by_cases hkey : Cluster.keyIn namespaceName d.stream = Cluster.keyIn namespaceName a.stream
        · -- A stream that is consumed twice is settled with its last round.
          exact .inr (hkey ▸ hsettled henv rfl)
        · rcases hdone henv d hd with hmem | hd'
          · rcases List.mem_cons.1 hmem with rfl | hmem
            · exact absurd rfl hkey
            · exact .inl hmem
          · exact .inr (by simpa only [SettledAt, hother _ hkey] using hd')
  case stop =>
    rintro c' ⟨hafter, -, hdone⟩
    refine ⟨hafter, fun henv _ k hk => ?_⟩
    obtain ⟨d, hd, rfl⟩ := hk
    exact (hdone henv d hd).resolve_left List.not_mem_nil

/-- All that the cleanup of a stage looks up before it writes. -/
def resolve (s : Stage) : Session (String × List Consumed) := do
  let pipeline ← Promotion.pipelineOf s
  let ds ← Promotion.consumed s pipeline
  pure (s.environmentLabel pipeline.spec.name, ds)

theorem deleteEnvironmentLabels_eq (s : Stage) :
    deleteEnvironmentLabels s = resolve s >>= fun r =>
      each r.2 fun d => retireFrom s.namespaceName r.1 d.stream := by
  simp only [deleteEnvironmentLabels, resolve, bind_assoc, pure_bind]

theorem reads_resolve (s : Stage) : (resolve s).Reads (Cluster.retirement s) :=
  (Promotion.reads_pipelineOf s).bind fun pipeline =>
    (Promotion.reads_consumed s pipeline).bind fun _ => reads_pure _

/-- Retiring an environment from the streams of a stage: nothing happens where a look-up fails, and
where none does the streams are retired one after the other. -/
theorem ensures_deleteEnvironmentLabels {s : Stage} (hc : c.Coherent) :
    (deleteEnvironmentLabels s).Ensures F c fun r c' =>
      (c' = c ∧ r ≠ .ok ()) ∨ ∃ env ds, c.retirement s = .ok (env, ds) ∧
        After c c' env (KeyOf s.namespaceName ds) ∧
        (IsEntry env → r = .ok () → Settled env (KeyOf s.namespaceName ds) c'.imageStreams) := by
  rw [deleteEnvironmentLabels_eq]
  refine (reads_resolve s).ensures_bind ?_ fun e _ => .inl ⟨rfl, error_ne_ok⟩
  rintro ⟨env, ds⟩ hds
  refine (ensures_each_retireFrom (hc.stored_of_retirement hds)).mono fun r c' h => ?_
  exact .inr ⟨env, ds, hds, h⟩

/-- Where all look-ups go well, what the cleanup does is up to the streams. -/
theorem ensures_deleteEnvironmentLabels_of_resolved {s : Stage} {env : String} {ds : List Consumed}
    {Q : Except Error Unit → Cluster → Prop} (hds : c.retirement s = .ok (env, ds))
    (h : (each ds fun d => retireFrom s.namespaceName env d.stream).Ensures NoFailure c Q) :
    (deleteEnvironmentLabels s).Ensures NoFailure c Q := by
  rw [deleteEnvironmentLabels_eq]
  refine (reads_resolve s).ensures_bind (fun r hr => ?_) fun e he => ?_
  · cases hds.symm.trans hr
    exact h
  · cases hds.symm.trans (he.resolve_right id)

/-- A look-up that finds nothing ends the cleanup before it has begun. -/
theorem ensures_deleteEnvironmentLabels_unsupplied {s : Stage} {e : Error}
    (h : c.retirement s = .error e) :
    (deleteEnvironmentLabels s).Ensures NoFailure c fun r c' => r = .error e ∧ c' = c := by
  rw [deleteEnvironmentLabels_eq]
  refine (reads_resolve s).ensures_bind (fun r hr => ?_) fun e' he' => ?_
  · cases h.symm.trans hr
  · cases h.symm.trans (he'.resolve_right id)
    exact ⟨rfl, rfl⟩

end Retirement

namespace Target

variable {F : Error → Prop} {c : Cluster}

/-- The target of a stage has been removed, as far as that is done here. -/
def Gone (config : Config) (s : Stage) (c : Cluster) : Prop :=
  config.managesNamespaces = true →
    if config.isKubernetes then c.namespaces.contains s.targetNamespace = false
    else c.projects.contains s.targetNamespace = false

/-- The removal of the target that suits the platform. -/
def removal (config : Config) (s : Stage) : Session Unit :=
  if config.managesNamespaces then
    if config.isKubernetes then deleteNamespace s else deleteProject s
  else pure ()

theorem deprovision_eq (config : Config) (s : Stage) :
    deprovision config s = Retirement.deleteEnvironmentLabels s >>= fun _ => removal config s := by
  obtain ⟨platform, manages, spaces⟩ := config
  cases platform <;> cases manages <;>
    simp [deprovision, RetirementStep.chain, RetirementStep.all, chainFrom, RetirementStep.next,
      Config.isKubernetes, each_nil, each_cons, RetirementStep.session, removal]

/-- Only a request that failed for no fault of its own keeps the target from being removed. -/
theorem ensures_removal (config : Config) (s : Stage) (hF : ∀ e, F e → e.isNotFound = false) :
    (removal config s).Ensures F c fun r c' =>
      (∃ namespaces projects, c' = { c with namespaces, projects }) ∧
        match r with
        | .ok () => Gone config s c'
        | .error _ => ∃ e, F e := by
  unfold removal
  refine ensures_ite (fun hmanages => ensures_ite (fun hkubernetes => ?_) fun hopenshift => ?_)
    fun hmanages => ?_
  · refine ensures_tolerate (ensures_request.2 ⟨fun e he => ?_, ?_⟩)
    · simp only [hF e he]
      exact ⟨⟨_, _, rfl⟩, e, he⟩
    · cases hthere : c.namespaces.contains s.targetNamespace with
      | true =>
          simp only [Cluster.serve, Cluster.deleteNamespace, hthere, if_true]
          refine ⟨⟨_, _, rfl⟩, fun _ => ?_⟩
          simp only [hkubernetes, if_true]
          exact Dict.contains_eq_false.2 (Dict.get?_erase_self _ _)
      | false =>
          simp only [Cluster.serve, Cluster.deleteNamespace, hthere]
          refine ⟨⟨_, _, rfl⟩, fun _ => ?_⟩
          simp only [hkubernetes, if_true]
          exact hthere
  · refine ensures_tolerate (ensures_request.2 ⟨fun e he => ?_, ?_⟩)
    · simp only [hF e he]
      exact ⟨⟨_, _, rfl⟩, e, he⟩
    · cases hthere : c.projects.contains s.targetNamespace with
      | true =>
          simp only [Cluster.serve, Cluster.deleteProject, hthere, if_true]
          refine ⟨⟨_, _, rfl⟩, fun _ => ?_⟩
          simp only [hopenshift]
          exact Dict.contains_eq_false.2 (Dict.get?_erase_self _ _)
      | false =>
          simp only [Cluster.serve, Cluster.deleteProject, hthere]
          refine ⟨⟨_, _, rfl⟩, fun _ => ?_⟩
          simp only [hopenshift]
          exact hthere
  · exact ⟨⟨_, _, rfl⟩, fun h => absurd h hmanages⟩

end Target

end Conveyor
