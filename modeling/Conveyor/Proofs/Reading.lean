import Conveyor.Deletion
import Conveyor.Proofs.Records
import Conveyor.Proofs.Session
import Mathlib.Data.List.Forall2

/-!
Sessions that only look things up. Such a session has a meaning without any run: a function of the
cluster, in which a failed look-up is the error. `p.Reads f` says that `f` is that function. A fault
on the way can only take the place of the answer; the cluster stays as it is in any case.

The look-ups of the operator are read off here, once and for all. What provisioning and deletion do
with the answers is then argued about `Cluster.pipelineOf`, `Cluster.consumed` and so on.
-/

namespace Conveyor

/-- Whether operations of this name leave every cluster as it is. -/
def Operation.isRead : Operation → Bool
  | .listStages | .getPipeline | .getComponent | .getImageStream | .getReleaseJob
  | .namespaceExists | .getRole | .getRoleBinding => true
  | _ => false

def Request.isRead (r : Request) : Bool := r.operation.isRead

theorem Cluster.serve_of_isRead {r : Request} (h : r.isRead = true) (c : Cluster) :
    (c.serve r).2 = c := by
  cases r <;> first | rfl | exact absurd h Bool.false_ne_true

namespace Session

variable {α β : Type} {F : Error → Prop} {c : Cluster}

/-- The session reads `f` off the cluster: unless one of its requests fails for no fault of its own,
its result is that of `f`. -/
structure Reads (p : Session α) (f : Cluster → Except Error α) : Prop where
  asks : p.Asks (·.isRead = true)
  ensures : ∀ F c, p.Ensures F c fun r c' => c' = c ∧ (r = f c ∨ ∃ e, r = .error e ∧ F e)

theorem Reads.congr {p : Session α} {f g : Cluster → Except Error α} (h : p.Reads f)
    (hfg : ∀ c, f c = g c) : p.Reads g := by
  rwa [funext hfg] at h

theorem reads_done (result : Except Error α) : (done result).Reads fun _ => result :=
  ⟨trivial, fun _ _ => ⟨rfl, .inl rfl⟩⟩

theorem reads_pure (a : α) : (pure a : Session α).Reads fun _ => .ok a := reads_done _

theorem reads_fail (e : Error) : (fail e : Session α).Reads fun _ => .error e := reads_done _

theorem reads_request {r : Request} (h : r.isRead = true) :
    (request r).Reads fun c => (c.serve r).1 where
  asks := asks_request h
  ensures F c := by
    refine ensures_request.2 ⟨fun e he => ⟨rfl, .inr ⟨e, rfl, he⟩⟩, ?_⟩
    exact ⟨Cluster.serve_of_isRead h c, .inl rfl⟩

theorem Reads.bind {p : Session α} {q : α → Session β} {f : Cluster → Except Error α}
    {g : α → Cluster → Except Error β} (hp : p.Reads f) (hq : ∀ a, (q a).Reads (g a)) :
    (p >>= q).Reads fun c => f c >>= fun a => g a c where
  asks := hp.asks.bind fun a => (hq a).asks
  ensures F c := by
    refine (hp.ensures F c).bind ?_ ?_
    · rintro a c' ⟨rfl, h | ⟨e, h, _⟩⟩
      · refine ((hq a).ensures F c').mono fun r c'' hr => ?_
        rw [← h]
        exact hr
      · cases h
    · rintro e c' ⟨rfl, h | ⟨e', h, he⟩⟩
      · exact ⟨rfl, .inl (by rw [← h]; rfl)⟩
      · exact ⟨rfl, .inr ⟨e', by cases h; rfl, he⟩⟩

theorem Reads.map {p : Session α} {f : Cluster → Except Error α} (hp : p.Reads f) (g : α → β) :
    (g <$> p).Reads fun c => g <$> f c := by
  have h := hp.bind fun a => reads_pure (g a)
  rw [bind_pure_comp] at h
  exact h.congr fun c => by cases f c <;> rfl

/-- A look-up whose answer is read off a table. -/
theorem reads_request_bind {r : Request} (hr : r.isRead = true) {table : Cluster → r.Response}
    (hserve : ∀ c : Cluster, (c.serve r).1 = .ok (table c)) {q : r.Response → Session β}
    {g : r.Response → Cluster → Except Error β} (hq : ∀ a, (q a).Reads (g a)) :
    (request r >>= q).Reads fun c => g (table c) c :=
  ((reads_request hr).bind hq).congr fun c => by rw [hserve]; rfl

/-- A session that begins with a look-up. -/
theorem Reads.ensures_bind {p : Session α} {q : α → Session β} {f : Cluster → Except Error α}
    {Q : Except Error β → Cluster → Prop} (hp : p.Reads f)
    (ok : ∀ a, f c = .ok a → (q a).Ensures F c Q)
    (error : ∀ e, f c = .error e ∨ F e → Q (.error e) c) : (p >>= q).Ensures F c Q := by
  refine (hp.ensures F c).bind ?_ ?_
  · rintro a c' ⟨rfl, h | ⟨e, h, _⟩⟩
    · exact ok a h.symm
    · cases h
  · rintro e c' ⟨rfl, h | ⟨e', h, he⟩⟩
    · exact error e (.inl h.symm)
    · cases h
      exact error e (.inr he)

end Session

/-! ### What the operator looks up -/

namespace Cluster

open Promotion (Consumed)

/-- What a look-up found; an error when that is nothing. -/
def found {α : Type} (missing : Error) : Option α → Except Error α
  | some a => .ok a
  | none => .error missing

theorem found_eq_ok {α : Type} {missing : Error} {x : Option α} {a : α} :
    found missing x = .ok a ↔ x = some a := by
  cases x <;> simp [found]

/-- The stages of a pipeline in the namespace of a stage. -/
def siblings (s : Stage) (pipeline : String) (c : Cluster) : List Stage :=
  (c.stagesOf s.namespaceName).filter (·.pipelineName = pipeline)

/-- The pipeline that a stage belongs to. -/
def pipelineOf (s : Stage) (c : Cluster) : Except Error Pipeline :=
  found (.notFound Kind.pipeline.name s.namespaceName s.pipelineName)
    (c.pipelines.get? ⟨s.namespaceName, s.pipelineName⟩)

def predecessor (s : Stage) (pipeline : String) (c : Cluster) : Except Error Stage :=
  found (.notFound Kind.stage.name s.namespaceName
      (pipeline ++ " order<" ++ String.ofList (Json.writeInt s.spec.order)))
    (Stage.previousOf s.spec.order (c.siblings s pipeline))

/-- The predecessor of a stage that has to have one. -/
def predecessor? (s : Stage) (pipeline : String) (c : Cluster) : Except Error (Option Stage) :=
  if s.isFirst then .ok none else some <$> c.predecessor s pipeline

def stream (namespaceName name : String) (c : Cluster) : Except Error ImageStream :=
  found (Promotion.lookupError Kind.imageStream.name namespaceName name)
    (c.imageStreams.get? ⟨namespaceName, name⟩)

def registryUrl (namespaceName : String) (c : Cluster) : Except Error String :=
  (found (Promotion.lookupError Kind.component.name namespaceName Component.registryName)
    (c.components.get? ⟨namespaceName, Component.registryName⟩)).map (·.spec.url)

/-- What a stage consumes for one input. -/
def consumedFor (s : Stage) (pipeline : Pipeline) (predecessor : Option Stage) (input : String)
    (c : Cluster) : Except Error Consumed := do
  let source ← c.stream s.namespaceName input
  match predecessor with
  | none => .ok ⟨source.spec.codebase, source⟩
  | some p => do
    let verified ← c.stream s.namespaceName
      (Promotion.verifiedName pipeline.name p.spec.name source.spec.codebase)
    .ok ⟨source.spec.codebase, verified⟩

def consumedForAll (s : Stage) (pipeline : Pipeline) (predecessor : Option Stage) :
    List String → Cluster → Except Error (List Consumed)
  | [], _ => .ok []
  | input :: inputs, c => do
    let d ← c.consumedFor s pipeline predecessor input
    let ds ← c.consumedForAll s pipeline predecessor inputs
    .ok (d :: ds)

/-- What a stage consumes, input by input. -/
def consumed (s : Stage) (pipeline : Pipeline) (c : Cluster) : Except Error (List Consumed) := do
  let names ← Promotion.inputs pipeline
  let predecessor ← c.predecessor? s pipeline.name
  c.consumedForAll s pipeline predecessor names

/-! ### One cluster after another

What a stage consumes in one cluster is compared with what it consumes in another input by input. -/

theorem stream_eq_ok {namespaceName name : String} {c : Cluster} {x : ImageStream} :
    c.stream namespaceName name = .ok x ↔ c.imageStreams.get? ⟨namespaceName, name⟩ = some x :=
  found_eq_ok

/-- What is consumed for an input has been found at two places at most. -/
theorem consumedFor_eq_ok {s : Stage} {pipeline : Pipeline} {predecessor : Option Stage}
    {input : String} {c : Cluster} {d : Consumed} :
    c.consumedFor s pipeline predecessor input = .ok d ↔
      ∃ source, c.imageStreams.get? ⟨s.namespaceName, input⟩ = some source ∧
        d.codebase = source.spec.codebase ∧
        match predecessor with
        | none => d.stream = source
        | some p => c.imageStreams.get? ⟨s.namespaceName,
            Promotion.verifiedName pipeline.name p.spec.name source.spec.codebase⟩ =
              some d.stream := by
  obtain ⟨codebase, stream⟩ := d
  simp only [consumedFor, bind_eq_ok, stream_eq_ok]
  refine exists_congr fun source => and_congr_right fun _ => ?_
  cases predecessor with
  | none =>
      simp only [Except.ok.injEq, Promotion.Consumed.mk.injEq]
      exact and_congr eq_comm eq_comm
  | some p =>
      simp only [bind_eq_ok, stream_eq_ok, Except.ok.injEq, Promotion.Consumed.mk.injEq]
      constructor
      · rintro ⟨verified, hverified, rfl, rfl⟩
        exact ⟨rfl, hverified⟩
      · rintro ⟨hcodebase, hverified⟩
        exact ⟨stream, hverified, hcodebase.symm, rfl⟩

theorem consumedForAll_cons_eq_ok {s : Stage} {pipeline : Pipeline} {predecessor : Option Stage}
    {input : String} {inputs : List String} {c : Cluster} {ds : List Consumed} :
    c.consumedForAll s pipeline predecessor (input :: inputs) = .ok ds ↔
      ∃ d, c.consumedFor s pipeline predecessor input = .ok d ∧
        ∃ rest, c.consumedForAll s pipeline predecessor inputs = .ok rest ∧ ds = d :: rest := by
  simp only [consumedForAll, bind_eq_ok, Except.ok.injEq]
  simp only [eq_comm]

theorem consumed_eq_ok {s : Stage} {pipeline : Pipeline} {c : Cluster} {ds : List Consumed} :
    c.consumed s pipeline = .ok ds ↔ ∃ names, Promotion.inputs pipeline = .ok names ∧
      ∃ predecessor, c.predecessor? s pipeline.name = .ok predecessor ∧
        c.consumedForAll s pipeline predecessor names = .ok ds := by
  simp only [consumed, bind_eq_ok]

theorem consumedForAll_congr {c c' : Cluster} (hstreams : c'.imageStreams = c.imageStreams)
    (s : Stage) (pipeline : Pipeline) (predecessor : Option Stage) (inputs : List String) :
    c'.consumedForAll s pipeline predecessor inputs =
      c.consumedForAll s pipeline predecessor inputs := by
  induction inputs with
  | nil => rfl
  | cons input inputs ih => simp only [consumedForAll, consumedFor, stream, hstreams, ih]

theorem consumedForAll_forall₂ {s : Stage} {pipeline : Pipeline} {p p' : Option Stage}
    {c c' : Cluster} {R : Consumed → Consumed → Prop} {inputs : List String}
    (h : ∀ input ∈ inputs, ∀ d, c.consumedFor s pipeline p input = .ok d →
      ∃ d', c'.consumedFor s pipeline p' input = .ok d' ∧ R d d')
    {ds : List Consumed} (hds : c.consumedForAll s pipeline p inputs = .ok ds) :
    ∃ ds', c'.consumedForAll s pipeline p' inputs = .ok ds' ∧ List.Forall₂ R ds ds' := by
  induction inputs generalizing ds with
  | nil =>
      cases hds
      exact ⟨[], rfl, .nil⟩
  | cons input inputs ih =>
      obtain ⟨hinput, hinputs⟩ := List.forall_mem_cons.1 h
      obtain ⟨d, hd, rest, hrest, rfl⟩ := consumedForAll_cons_eq_ok.1 hds
      obtain ⟨d', hd', hR⟩ := hinput d hd
      obtain ⟨rest', hrest', hRs⟩ := ih hinputs hrest
      exact ⟨d' :: rest', consumedForAll_cons_eq_ok.2 ⟨d', hd', rest', hrest', rfl⟩, .cons hR hRs⟩

end Cluster

open Session

namespace Stage

theorem reads_siblings (s : Stage) (pipeline : String) :
    (s.siblings pipeline).Reads fun c => .ok (c.siblings s pipeline) :=
  reads_request_bind (r := .listStages s.namespaceName) rfl (fun _ => rfl)
    fun stages => reads_pure (List.filter (fun t : Stage => t.pipelineName = pipeline) stages)

theorem reads_predecessor (s : Stage) (pipeline : String) :
    (s.predecessor pipeline).Reads (Cluster.predecessor s pipeline) := by
  refine (s.reads_siblings pipeline).bind (g := fun siblings _ => Cluster.found _
    (previousOf s.spec.order siblings)) fun siblings => ?_
  cases previousOf s.spec.order siblings with
  | some p => exact reads_pure p
  | none => exact reads_fail _

end Stage

namespace Promotion

theorem reads_pipelineOf (s : Stage) : (pipelineOf s).Reads (Cluster.pipelineOf s) := by
  refine reads_request_bind (r := .getPipeline s.namespaceName s.pipelineName) rfl (fun _ => rfl)
    (g := fun found _ => Cluster.found _ found) fun found => ?_
  cases found with
  | some p => exact reads_pure p
  | none => exact reads_fail _

theorem reads_stream (namespaceName name : String) :
    (stream namespaceName name).Reads (Cluster.stream namespaceName name) := by
  refine reads_request_bind (r := .getImageStream namespaceName name) rfl (fun _ => rfl)
    (g := fun found _ => Cluster.found _ found) fun found => ?_
  cases found with
  | some s => exact reads_pure s
  | none => exact reads_fail _

theorem reads_registryUrl (namespaceName : String) :
    (registryUrl namespaceName).Reads (Cluster.registryUrl namespaceName) := by
  refine reads_request_bind (r := .getComponent namespaceName Component.registryName) rfl
    (fun _ => rfl) (g := fun found _ => (Cluster.found _ found).map (·.spec.url)) fun found => ?_
  cases found with
  | some o => exact reads_pure o.spec.url
  | none => exact reads_fail _

theorem reads_consumedFor (s : Stage) (pipeline : Pipeline) (predecessor : Option Stage)
    (input : String) :
    (consumedFor s pipeline predecessor input).Reads
      (Cluster.consumedFor s pipeline predecessor input) := by
  refine (reads_stream s.namespaceName input).bind fun source => ?_
  cases predecessor with
  | none => exact reads_pure _
  | some p => exact (reads_stream _ _).bind fun verified => reads_pure _

theorem reads_consumedForAll (s : Stage) (pipeline : Pipeline) (predecessor : Option Stage)
    (inputs : List String) :
    (consumedForAll s pipeline predecessor inputs).Reads
      (Cluster.consumedForAll s pipeline predecessor inputs) := by
  induction inputs with
  | nil => exact reads_pure []
  | cons input inputs ih =>
      exact (reads_consumedFor s pipeline predecessor input).bind fun d =>
        ih.bind fun ds => reads_pure (d :: ds)

theorem reads_consumed (s : Stage) (pipeline : Pipeline) :
    (consumed s pipeline).Reads (Cluster.consumed s pipeline) := by
  refine (reads_done _).bind fun names => ?_
  cases hfirst : s.isFirst with
  | true =>
      refine ((reads_pure none).bind fun predecessor =>
        reads_consumedForAll s pipeline predecessor names).congr fun c => ?_
      simp only [Cluster.predecessor?, hfirst, if_true]
  | false =>
      refine (((s.reads_predecessor pipeline.name).map some).bind fun predecessor =>
        reads_consumedForAll s pipeline predecessor names).congr fun c => ?_
      simp only [Cluster.predecessor?, hfirst, Bool.false_eq_true, if_false]

end Promotion

end Conveyor
