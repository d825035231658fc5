import Conveyor.Proofs.Aim
import Conveyor.Proofs.Reading
import Conveyor.Proofs.Statuses

/-!
The clusters that a reconcile passes through. A reconcile may be cut short after any of its writes,
and the next one starts from what is there then. What carries over is `UnderWay`: the next reconcile
finds out the same as this one did, and it is bound for the same contents.
-/

namespace Conveyor

/-! ### What a reconcile never changes of its stage -/

namespace Stage

structure Like (t s : Stage) : Prop where
  name : t.name = s.name
  namespaceName : t.metadata.namespaceName = s.metadata.namespaceName
  isBeingDeleted : t.isBeingDeleted = s.isBeingDeleted
  pipelineName : t.pipelineName = s.pipelineName
  spec : t.spec = s.spec
  backlog : SameBacklog t.status s.status

variable {s t u : Stage}

theorem Like.refl (s : Stage) : s.Like s := ⟨rfl, rfl, rfl, rfl, rfl, .refl _⟩

theorem Like.symm (h : t.Like s) : s.Like t :=
  ⟨h.name.symm, h.namespaceName.symm, h.isBeingDeleted.symm, h.pipelineName.symm, h.spec.symm,
    h.backlog.symm⟩

theorem Like.trans (h : u.Like t) (k : t.Like s) : u.Like s :=
  ⟨h.name.trans k.name, h.namespaceName.trans k.namespaceName,
    h.isBeingDeleted.trans k.isBeingDeleted, h.pipelineName.trans k.pipelineName,
    h.spec.trans k.spec, h.backlog.trans k.backlog⟩

theorem Like.home (h : t.Like s) : t.namespaceName = s.namespaceName :=
  congrArg (·.getD "") h.namespaceName

theorem Like.key (h : t.Like s) : t.key = s.key := by
  simp only [Stage.key, h.home, h.name]

theorem Like.targetNamespace (h : t.Like s) : t.targetNamespace = s.targetNamespace := by
  simp only [Stage.targetNamespace, h.home, h.name]

theorem Like.aim (h : t.Like s) (config : Config) (p : Plan) (d : Contents) :
    d.aim config t p = d.aim config s p := by
  have hstream : p.streamKey t = p.streamKey s := by
    funext x
    simp only [Plan.streamKey, h.home, h.spec]
  have hsupply : p.supplyStream t = p.supplyStream s := by
    funext x
    simp only [Plan.supplyStream, h.home, h.spec]
  have hjob : ReleaseJob.desired t p.pipeline = ReleaseJob.desired s p.pipeline := by
    simp only [ReleaseJob.desired, ReleaseJob.parameters, h.name, h.namespaceName, h.spec]
  have hplaces (x : Places) : x.supply config t = x.supply config s := by
    unfold Places.supply
    rw [h.targetNamespace, h.home]
  simp only [Contents.aim_eq, h.key, h.targetNamespace, h.home, hstream, hsupply, hjob, hplaces]

/-- The pipeline can be made the owner of the stage, or it is already. -/
def MayBelongTo (p : Pipeline) (s : Stage) : Prop :=
  s.isOwnedBy p = true ∨ ∃ owners, s.ownersWith p.ownerReference = .ok owners

/-- Stages of another order, the stage's own among them, do not count in the search for a
predecessor. -/
theorem previousOf_filter (order : Int) (ss : List Stage) :
    previousOf order (ss.filter (·.spec.order < order)) = previousOf order ss := by
  induction ss with
  | nil => rfl
  | cons s ss ih =>
      by_cases h : s.spec.order < order
      · rw [List.filter_cons_of_pos (by simpa using h), previousOf, previousOf, ih]
      · rw [List.filter_cons_of_neg (by simpa using h), previousOf, ih]
        cases previousOf order ss <;> simp [h]

end Stage

/-- Dictionaries that agree about the values of one sort list them in the same order. -/
theorem Dict.filter_toList_eq {κ α : Type} [KeyOrder κ] {d e : Dict κ α} {p : α → Bool}
    (h : ∀ k a, p a = true → (d.get? k = some a ↔ e.get? k = some a)) :
    d.toList.filter (fun f => p f.2) = e.toList.filter (fun f => p f.2) := by
  have hd : Entries.Ascending (d.toList.filter fun f => p f.2) := d.ascending.filter _
  have he : Entries.Ascending (e.toList.filter fun f => p f.2) := e.ascending.filter _
  have hmem (d : Dict κ α) (k : κ) (a : α) :
      Entries.get? k (d.toList.filter fun f => p f.2) = some a ↔
        d.get? k = some a ∧ p a = true := by
    constructor
    · intro hk
      obtain ⟨hin, hp⟩ := List.mem_filter.1 (Entries.mem_of_get? hk)
      exact ⟨Dict.mem_toList.1 hin, hp⟩
    · rintro ⟨hk, hp⟩
      have hin : (k, a) ∈ d.toList.filter fun f => p f.2 :=
        List.mem_filter.2 ⟨Dict.mem_toList.2 hk, hp⟩
      exact Entries.get?_of_mem (d.ascending.filter _) hin
  -- Both lists ascend, so it is enough that they give the same for every key.
  refine Entries.eq_of_get? hd he fun k => Option.ext fun a => ?_
  rw [hmem, hmem]
  exact and_congr_left (h k a)

namespace Cluster

variable {config : Config} {s : Stage} {c c' c'' : Cluster}

/-! ### What a reconcile finds out -/

/-- The codebases that a stage publishes, input by input. -/
def codebases (s : Stage) (pipeline : Pipeline) (c : Cluster) : Except Error (List String) :=
  (c.consumed s pipeline).map fun ds => ds.map (·.codebase)

/-- The pipeline can be made the owner of the stored copy of the stage. -/
def Ownable (s : Stage) (p : Pipeline) (c : Cluster) : Prop :=
  ∃ t, c.stages.get? s.key = some t ∧ t.MayBelongTo p

/-- All that the provisioning of a stage depends on is in order, and the plan says what it is. -/
structure Plans (config : Config) (s : Stage) (p : Plan) (c : Cluster) : Prop where
  pipeline : c.pipelineOf s = .ok p.pipeline
  owner : c.Ownable s p.pipeline
  target : config.managesNamespaces = true ∨ c.namespaces.contains s.targetNamespace = true
  codebases : c.codebases s p.pipeline = .ok p.codebases
  registry : c.registryUrl s.namespaceName = .ok p.registry

theorem codebases_eq_ok {p : Pipeline} {xs : List String} :
    c.codebases s p = .ok xs ↔ ∃ ds, c.consumed s p = .ok ds ∧ ds.map (·.codebase) = xs := by
  rw [codebases]
  cases c.consumed s p <;> simp [Except.map]

theorem predecessor_congr
    (h : ∀ k t, t.spec.order < s.spec.order →
      (c'.stages.get? k = some t ↔ c.stages.get? k = some t)) (pipeline : String) :
    c'.predecessor s pipeline = c.predecessor s pipeline := by
  have hlists := Dict.filter_toList_eq (p := fun t => decide (t.spec.order < s.spec.order))
    fun k t ht => h k t (of_decide_eq_true ht)
  -- Here the order is looked at first, in `predecessor` last.
  have hsiblings (d : Cluster) : (d.siblings s pipeline).filter (·.spec.order < s.spec.order) =
      (((d.stages.toList.filter fun f => decide (f.2.spec.order < s.spec.order)).filter
        fun e => e.1.namespaceName = s.namespaceName).map (·.2)).filter
          (·.pipelineName = pipeline) := by
    simp only [siblings, stagesOf, List.filter_map, List.filter_filter, Function.comp_def]
    congr 1
    refine List.filter_congr fun e _ => ?_
    simp only [Bool.and_comm, Bool.and_assoc]
  rw [predecessor, predecessor, ← Stage.previousOf_filter, hsiblings, hlists, ← hsiblings,
    Stage.previousOf_filter]

theorem codebases_congr (himageStreams : c'.imageStreams = c.imageStreams)
    (hpredecessor : ∀ pipeline, c'.predecessor s pipeline = c.predecessor s pipeline)
    (p : Pipeline) : c'.codebases s p = c.codebases s p := by
  simp only [codebases, consumed, predecessor?, hpredecessor, consumedForAll_congr himageStreams]

/-! Stages that are alike find out the same. -/

section

variable {t : Stage}

theorem pipelineOf_like (h : t.Like s) : c.pipelineOf t = c.pipelineOf s := by
  simp only [pipelineOf, h.home, h.pipelineName]

theorem codebases_like (h : t.Like s) (p : Pipeline) : c.codebases t p = c.codebases s p := by
  have hall (predecessor : Option Stage) (inputs : List String) :
      c.consumedForAll t p predecessor inputs = c.consumedForAll s p predecessor inputs := by
    induction inputs with
    | nil => rfl
    | cons input inputs ih => simp only [consumedForAll, consumedFor, h.home, ih]
  have hfirst : t.isFirst = s.isFirst := by rw [Stage.isFirst, Stage.isFirst, h.spec]
  have hpredecessor : c.predecessor? t p.name = c.predecessor? s p.name := by
    rw [predecessor?, predecessor?, hfirst, predecessor, predecessor, siblings, siblings, h.home,
      h.spec]
  simp only [codebases, consumed, hpredecessor, hall]

theorem ownable_like (h : t.Like s) (p : Pipeline) : c.Ownable t p ↔ c.Ownable s p := by
  rw [Ownable, Ownable, h.key]

theorem plans_like (h : t.Like s) (p : Plan) : c.Plans config t p ↔ c.Plans config s p := by
  constructor
  · rintro ⟨hpipeline, howner, htarget, hcodebases, hregistry⟩
    exact ⟨pipelineOf_like h ▸ hpipeline, (ownable_like h _).1 howner,
      h.targetNamespace ▸ htarget, codebases_like h _ ▸ hcodebases, h.home ▸ hregistry⟩
  · rintro ⟨hpipeline, howner, htarget, hcodebases, hregistry⟩
    exact ⟨pipelineOf_like h ▸ hpipeline, (ownable_like h _).2 howner,
      h.targetNamespace ▸ htarget, codebases_like h _ ▸ hcodebases, h.home ▸ hregistry⟩

end

/-! ### Between the writes of a reconcile -/

/-- The stage is stored, in whatever state. -/
def Holds (s : Stage) (c : Cluster) : Prop := ∃ t, c.stages.get? s.key = some t ∧ t.Like s

/-- What no part of a reconcile changes. -/
structure Kept (config : Config) (s : Stage) (c c' : Cluster) : Prop where
  stored : c.Holds s → c'.Holds s
  others : ∀ k, k ≠ s.key → c'.stages.get? k = c.stages.get? k
  pipelines : c'.pipelines = c.pipelines
  components : c'.components = c.components
  owner : ∀ p, c.pipelineOf s = .ok p → (c'.Ownable s p ↔ c.Ownable s p)
  required : config.managesNamespaces = false → c'.namespaces = c.namespaces

/-- The cluster `c'` is on the way from `c` to where a reconcile of the stage leads. -/
structure UnderWay (config : Config) (s : Stage) (c c' : Cluster) : Prop
    extends Kept config s c c' where
  codebases : ∀ p, c.pipelineOf s = .ok p → ∀ xs,
    c'.codebases s p = .ok xs ↔ c.codebases s p = .ok xs
  aim : ∀ p, c.Plans config s p → c'.contents.aim config s p = c.contents.aim config s p

theorem Kept.pipelineOf (h : Kept config s c c') : c'.pipelineOf s = c.pipelineOf s := by
  rw [Cluster.pipelineOf, Cluster.pipelineOf, h.pipelines]

theorem Kept.registryUrl (h : Kept config s c c') (namespaceName : String) :
    c'.registryUrl namespaceName = c.registryUrl namespaceName := by
  rw [Cluster.registryUrl, Cluster.registryUrl, h.components]

theorem Kept.target (h : Kept config s c c') :
    (config.managesNamespaces = true ∨ c'.namespaces.contains s.targetNamespace = true) ↔
      (config.managesNamespaces = true ∨ c.namespaces.contains s.targetNamespace = true) := by
  cases hm : config.managesNamespaces with
  | true => exact ⟨fun _ => .inl rfl, fun _ => .inl rfl⟩
  | false => rw [h.required hm]

theorem Kept.predecessor (h : Kept config s c c') (hc : c.Holds s) (pipeline : String) :
    c'.predecessor s pipeline = c.predecessor s pipeline := by
  obtain ⟨t', ht', hlike'⟩ := h.stored hc
  obtain ⟨t, ht, hlike⟩ := hc
  refine predecessor_congr (fun k u hu => ?_) pipeline
  by_cases hk : k = s.key
  · -- The stage's own entry is of its own order, before and after.
    subst hk
    constructor
    · intro hu'
      rw [ht'] at hu'
      cases hu'
      exact absurd hu (by rw [hlike'.spec]; omega)
    · intro hu'
      rw [ht] at hu'
      cases hu'
      exact absurd hu (by rw [hlike.spec]; omega)
  · rw [h.others k hk]

theorem UnderWay.plans (h : UnderWay config s c c') (p : Plan) :
    c'.Plans config s p ↔ c.Plans config s p := by
  constructor
  · rintro ⟨hpipeline, howner, htarget, hcodebases, hregistry⟩
    rw [h.pipelineOf] at hpipeline
    exact ⟨hpipeline, (h.owner _ hpipeline).1 howner, h.target.1 htarget,
      (h.codebases _ hpipeline _).1 hcodebases, h.registryUrl _ ▸ hregistry⟩
  · rintro ⟨hpipeline, howner, htarget, hcodebases, hregistry⟩
    exact ⟨h.pipelineOf ▸ hpipeline, (h.owner _ hpipeline).2 howner, h.target.2 htarget,
      (h.codebases _ hpipeline _).2 hcodebases, h.registryUrl _ ▸ hregistry⟩

theorem Kept.refl (config : Config) (s : Stage) (c : Cluster) : Kept config s c c where
  stored := id
  others _ _ := rfl
  pipelines := rfl
  components := rfl
  owner _ _ := Iff.rfl
  required _ := rfl

theorem Kept.trans (h : Kept config s c c') (k : Kept config s c' c'') : Kept config s c c'' where
  stored hc := k.stored (h.stored hc)
  others l hl := (k.others l hl).trans (h.others l hl)
  pipelines := k.pipelines.trans h.pipelines
  components := k.components.trans h.components
  owner p hp := (k.owner p (h.pipelineOf ▸ hp)).trans (h.owner p hp)
  required hm := (k.required hm).trans (h.required hm)

theorem UnderWay.refl (config : Config) (s : Stage) (c : Cluster) : UnderWay config s c c :=
  { Kept.refl config s c with
    codebases := fun _ _ _ => Iff.rfl
    aim := fun _ _ => rfl }

theorem UnderWay.trans (h : UnderWay config s c c') (k : UnderWay config s c' c'') :
    UnderWay config s c c'' :=
  { h.toKept.trans k.toKept with
    codebases := fun p hp xs =>
      (k.codebases p (h.pipelineOf ▸ hp) xs).trans (h.codebases p hp xs)
    aim := fun p hp => (k.aim p ((h.plans p).2 hp)).trans (h.aim p hp) }

/-! It does not matter by which copy of a stage the way is told. -/

theorem Kept.like {t : Stage} (h : Kept config t c c') (ht : t.Like s) : Kept config s c c' where
  stored hc := by
    obtain ⟨u, hu, hlike⟩ := hc
    obtain ⟨u', hu', hlike'⟩ := h.stored ⟨u, ht.key ▸ hu, hlike.trans ht.symm⟩
    exact ⟨u', ht.key ▸ hu', hlike'.trans ht⟩
  others k hk := h.others k (ht.key ▸ hk)
  pipelines := h.pipelines
  components := h.components
  owner p hp := by
    rw [← ownable_like ht, ← ownable_like ht]
    exact h.owner p (pipelineOf_like ht ▸ hp)
  required := h.required

theorem UnderWay.like {t : Stage} (h : UnderWay config t c c') (ht : t.Like s) :
    UnderWay config s c c' :=
  { h.toKept.like ht with
    codebases := fun p hp xs => by
      rw [← codebases_like ht, ← codebases_like ht]
      exact h.codebases p (pipelineOf_like ht ▸ hp) xs
    aim := fun p hp => by
      rw [← ht.aim, ← ht.aim]
      exact h.aim p ((plans_like ht p).2 hp) }

/-! ### One write -/

theorem Kept.of_stages (stages : c'.stages = c.stages) (pipelines : c'.pipelines = c.pipelines)
    (components : c'.components = c.components)
    (required : config.managesNamespaces = false → c'.namespaces = c.namespaces) :
    Kept config s c c' where
  stored := by
    rintro ⟨t, ht, hlike⟩
    exact ⟨t, stages ▸ ht, hlike⟩
  others _ _ := by rw [stages]
  pipelines := pipelines
  components := components
  owner _ _ := by rw [Ownable, Ownable, stages]
  required := required

/-- A write to something that no plan looks at. -/
theorem UnderWay.of_stages (stages : c'.stages = c.stages) (pipelines : c'.pipelines = c.pipelines)
    (components : c'.components = c.components) (imageStreams : c'.imageStreams = c.imageStreams)
    (required : config.managesNamespaces = false → c'.namespaces = c.namespaces)
    (aim : ∀ p, c.Plans config s p → c'.contents.aim config s p = c.contents.aim config s p) :
    UnderWay config s c c' :=
  { Kept.of_stages stages pipelines components required with
    codebases := fun p _ xs => by
      rw [codebases_congr imageStreams (fun _ => predecessor_congr (fun _ _ _ => by rw [stages]) _)]
    aim := aim }

theorem underWay_counted (config : Config) (s : Stage) (c : Cluster) :
    UnderWay config s c c.counted :=
  .of_stages rfl rfl rfl rfl (fun _ => rfl) fun _ _ => rfl

section

variable {t t' : Stage} {f : Stage → Stage}

theorem contents_writeStage (hs : c.stages.get? s.key = some t) (hf : t'.content = f t.content)
    (w : StageWrite) : (c.writeStage s.key t' w).contents = c.contents.atStage s f := by
  have hstages : Objects.seen Stage.content (c.stages.insert s.key t') =
      Table.alter s.key (Option.map f) (c.stages.seen Stage.content) := by
    refine Objects.seen_insert ?_
    rw [Objects.seen_of_stored hs, Option.map_some, hf]
  simp only [contents, writeStage, hstages, Contents.atStage, places]

/-- The stage is written with something that it is to have, or that does not matter to where it is
going. -/
theorem underWay_writeStage (hs : c.stages.get? s.key = some t) (ht : t.Like s) (ht' : t'.Like s)
    (howner : ∀ p, c.pipelineOf s = .ok p → (t'.MayBelongTo p ↔ t.MayBelongTo p))
    (haim : ∀ p, c.Plans config s p →
      t'.content.settled p.pipeline = t.content.settled p.pipeline)
    (w : StageWrite) : UnderWay config s c (c.writeStage s.key t' w) := by
  have hget : (c.writeStage s.key t' w).stages.get? s.key = some t' := Dict.get?_insert_self ..
  have hkept : Kept config s c (c.writeStage s.key t' w) :=
    { stored := fun _ => ⟨t', hget, ht'⟩
      others := fun k hk => Dict.get?_insert_of_ne _ _ hk
      pipelines := rfl
      components := rfl
      owner := fun p hp => by
        have hnew : (c.writeStage s.key t' w).Ownable s p ↔ t'.MayBelongTo p := by
          simp only [Ownable, hget, Option.some.injEq, exists_eq_left']
        have hold : c.Ownable s p ↔ t.MayBelongTo p := by
          simp only [Ownable, hs, Option.some.injEq, exists_eq_left']
        rw [hnew, hold, howner p hp]
      required := fun _ => rfl }
  refine { hkept with codebases := fun p _ xs => ?_, aim := fun p hp => ?_ }
  · have hstreams : (c.writeStage s.key t' w).imageStreams = c.imageStreams := rfl
    rw [codebases_congr hstreams (hkept.predecessor ⟨t, hs, ht⟩)]
  · rw [contents_writeStage hs (f := fun _ => t'.content) rfl]
    refine Contents.aim_atStage fun u hu => ?_
    have hu' : t.content = u := Option.some.inj ((Objects.seen_of_stored hs).symm.trans hu)
    rw [haim p hp, hu']

end

end Cluster

end Conveyor
