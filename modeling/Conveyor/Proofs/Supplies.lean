import Conveyor.Proofs.Deletion
import Conveyor.Proofs.Publishing
import Conveyor.Proofs.Retirement

/-!
What a stage has to find for its look-ups to go well. Publication and cleanup look for the same
things: the pipeline, its inputs, and for a stage that is not the first one the streams of a
predecessor. Of a stream nothing but its codebase counts for what is found, so the codebases of all
streams (`Cluster.codebaseAt`) decide together with pipelines and stages.
-/

namespace Conveyor

open Promotion (Consumed)

namespace Stage

variable {order : Int} {ss : List Stage} {q : Stage}

/-- A predecessor is one of the siblings and comes before. -/
theorem previousOf_eq_some (h : previousOf order ss = some q) : q ∈ ss ∧ q.spec.order < order := by
  induction ss with
  | nil => cases h
  | cons s ss ih =>
      rw [previousOf] at h
      cases hrest : previousOf order ss with
      | none =>
          simp only [hrest] at h
          split at h
          · next hlower =>
            cases h
            exact ⟨List.mem_cons_self, hlower⟩
          · cases h
      | some p =>
          simp only [hrest] at h
          split at h
          · next hlower =>
            cases h
            exact ⟨List.mem_cons_self, hlower.2⟩
          · cases h
            obtain ⟨hmem, hlower⟩ := ih hrest
            exact ⟨List.mem_cons_of_mem s hmem, hlower⟩

/-- Where a sibling comes before, there is a predecessor. -/
theorem exists_previousOf (hq : q ∈ ss) (hlower : q.spec.order < order) :
    ∃ p, previousOf order ss = some p := by
  induction ss with
  | nil => cases hq
  | cons s ss ih =>
      rw [previousOf]
      cases hrest : previousOf order ss with
      | some p =>
          dsimp only
          split
          · exact ⟨s, rfl⟩
          · exact ⟨p, rfl⟩
      | none =>
          rcases List.mem_cons.1 hq with rfl | hq
          · exact ⟨q, if_pos hlower⟩
          · obtain ⟨p, hp⟩ := ih hq
            rw [hrest] at hp
            cases hp

end Stage

namespace Cluster

variable {s : Stage} {p : Pipeline} {c : Cluster}

/-- The codebase that the stream at a key is about. -/
def codebaseAt (k : ObjectKey) (c : Cluster) : Option String :=
  (c.imageStreams.get? k).map (·.spec.codebase)

theorem codebaseAt_eq_some {k : ObjectKey} {x : String} :
    c.codebaseAt k = some x ↔ ∃ a, c.imageStreams.get? k = some a ∧ a.spec.codebase = x :=
  Option.map_eq_some_iff

/-- All that a stage of the pipeline consumes is there. -/
structure Supplies (s : Stage) (p : Pipeline) (c : Cluster) : Prop where
  pipeline : c.pipelines.get? ⟨s.namespaceName, s.pipelineName⟩ = some p
  inputs : p.spec.inputStreams ≠ []
  sources : ∀ input ∈ p.spec.inputStreams, ∃ x, c.codebaseAt ⟨s.namespaceName, input⟩ = some x
  /-- A stage that is not the first one has a predecessor, and that one has published all codebases.
  -/
  verified : s.spec.order ≠ 0 →
    ∃ q, Stage.previousOf s.spec.order (c.siblings s p.name) = some q ∧
      ∀ input ∈ p.spec.inputStreams, ∀ x, c.codebaseAt ⟨s.namespaceName, input⟩ = some x →
        ∃ y, c.codebaseAt
          ⟨s.namespaceName, Promotion.verifiedName p.name q.spec.name x⟩ = some y

theorem exists_consumedFor {predecessor : Option Stage} {input : String} :
    (∃ d, c.consumedFor s p predecessor input = .ok d) ↔
      ∃ x, c.codebaseAt ⟨s.namespaceName, input⟩ = some x ∧
        ∀ q ∈ predecessor, ∃ y, c.codebaseAt
          ⟨s.namespaceName, Promotion.verifiedName p.name q.spec.name x⟩ = some y := by
  simp only [consumedFor_eq_ok, codebaseAt_eq_some]
  constructor
  · rintro ⟨d, source, hsource, -, hstream⟩
    refine ⟨_, ⟨source, hsource, rfl⟩, fun q hq => ?_⟩
    cases hq
    exact ⟨_, d.stream, hstream, rfl⟩
  · rintro ⟨x, ⟨source, hsource, rfl⟩, hverified⟩
    cases predecessor with
    | none => exact ⟨⟨_, source⟩, source, hsource, rfl, rfl⟩
    | some q =>
        obtain ⟨y, v, hv, -⟩ := hverified q rfl
        exact ⟨⟨_, v⟩, source, hsource, rfl, hv⟩

theorem exists_consumedForAll (predecessor : Option Stage) {inputs : List String} :
    (∃ ds, c.consumedForAll s p predecessor inputs = .ok ds) ↔
      ∀ input ∈ inputs, ∃ x, c.codebaseAt ⟨s.namespaceName, input⟩ = some x ∧
        ∀ q ∈ predecessor, ∃ y, c.codebaseAt
          ⟨s.namespaceName, Promotion.verifiedName p.name q.spec.name x⟩ = some y := by
  simp only [← exists_consumedFor]
  constructor
  · rintro ⟨ds, hds⟩ input hinput
    obtain ⟨d, -, hd⟩ := (consumedForAll_mem hds).1 input hinput
    exact ⟨d, hd⟩
  · intro h
    induction inputs with
    | nil => exact ⟨[], rfl⟩
    | cons input inputs ih =>
        obtain ⟨⟨d, hd⟩, hinputs⟩ := List.forall_mem_cons.1 h
        obtain ⟨ds, hds⟩ := ih hinputs
        exact ⟨d :: ds, consumedForAll_cons_eq_ok.2 ⟨d, hd, ds, hds, rfl⟩⟩

theorem forall₂_codebaseAt {predecessor : Option Stage} {inputs : List String}
    {ds : List Consumed} (hds : c.consumedForAll s p predecessor inputs = .ok ds) :
    List.Forall₂ (fun input x => c.codebaseAt ⟨s.namespaceName, input⟩ = some x) inputs
      (ds.map (·.codebase)) := by
  induction inputs generalizing ds with
  | nil =>
      cases hds
      exact .nil
  | cons input inputs ih =>
      obtain ⟨d, hd, rest, hrest, rfl⟩ := consumedForAll_cons_eq_ok.1 hds
      obtain ⟨source, hsource, hcodebase, -⟩ := consumedFor_eq_ok.1 hd
      exact .cons (codebaseAt_eq_some.2 ⟨source, hsource, hcodebase.symm⟩) (ih hrest)

/-- What is consumed is about the codebases of the inputs. -/
theorem map_codebase_of_consumedForAll {predecessor : Option Stage} {inputs xs : List String}
    (h : List.Forall₂ (fun input x => c.codebaseAt ⟨s.namespaceName, input⟩ = some x) inputs xs)
    {ds : List Consumed} (hds : c.consumedForAll s p predecessor inputs = .ok ds) :
    ds.map (·.codebase) = xs := by
  induction h generalizing ds with
  | nil =>
      cases hds
      rfl
  | cons hx _ ih =>
      obtain ⟨d, hd, rest, hrest, rfl⟩ := consumedForAll_cons_eq_ok.1 hds
      obtain ⟨source, hsource, hcodebase, -⟩ := consumedFor_eq_ok.1 hd
      rw [codebaseAt, hsource] at hx
      cases hx
      rw [List.map_cons, hcodebase, ih hrest]

theorem inputs_of_ne_nil (h : p.spec.inputStreams ≠ []) :
    Promotion.inputs p = .ok p.spec.inputStreams := by
  refine if_neg ?_
  simpa using h

/-- **What is consumed is found when all of it is there.** -/
theorem supplies_iff :
    c.Supplies s p ↔ c.pipelineOf s = .ok p ∧ ∃ ds, c.consumed s p = .ok ds := by
  simp only [consumed_eq_ok]
  constructor
  · rintro ⟨hpipeline, hinputs, hsources, hverified⟩
    refine ⟨found_eq_ok.2 hpipeline, ?_⟩
    by_cases hfirst : s.spec.order = 0
    · have hprevious : c.predecessor? s p.name = .ok none := if_pos (by simpa [Stage.isFirst])
      obtain ⟨ds, hds⟩ := (exists_consumedForAll none).2 fun input hinput =>
        (hsources input hinput).imp fun x hx => ⟨hx, fun q hq => by cases hq⟩
      exact ⟨ds, _, inputs_of_ne_nil hinputs, none, hprevious, hds⟩
    · obtain ⟨q, hq, hpublished⟩ := hverified hfirst
      have hprevious : c.predecessor? s p.name = .ok (some q) := by
        rw [predecessor?, if_neg (by simpa [Stage.isFirst]), predecessor, hq]
        rfl
      obtain ⟨ds, hds⟩ := (exists_consumedForAll (some q)).2 fun input hinput =>
        (hsources input hinput).imp fun x hx => ⟨hx, fun q' hq' => by
          cases hq'
          exact hpublished input hinput x hx⟩
      exact ⟨ds, _, inputs_of_ne_nil hinputs, some q, hprevious, hds⟩
  · rintro ⟨hpipeline, ds, names, hnames, predecessor, hprevious, hds⟩
    obtain rfl := inputs_eq_ok hnames
    have hfound := (exists_consumedForAll predecessor).1 ⟨ds, hds⟩
    refine ⟨found_eq_ok.1 hpipeline, fun hnil => ?_, fun input hinput => ?_, fun hfirst => ?_⟩
    · rw [Promotion.inputs, hnil] at hnames
      cases hnames
    · obtain ⟨x, hx, -⟩ := hfound input hinput
      exact ⟨x, hx⟩
    · rw [predecessor?, if_neg (by simpa [Stage.isFirst])] at hprevious
      cases hq : Stage.previousOf s.spec.order (c.siblings s p.name) with
      | none =>
          rw [Cluster.predecessor, hq] at hprevious
          cases hprevious
      | some q =>
          rw [Cluster.predecessor, hq] at hprevious
          cases hprevious
          refine ⟨q, rfl, fun input hinput x hx => ?_⟩
          obtain ⟨x', hx', hverified⟩ := hfound input hinput
          rw [hx] at hx'
          cases hx'
          exact hverified q rfl

/-- A stage can publish where it finds what it consumes and the registry. -/
theorem exists_publishes :
    (∃ q, c.Publishes s q) ↔ (∃ p, c.Supplies s p) ∧
      ∃ o, c.components.get? ⟨s.namespaceName, Component.registryName⟩ = some o := by
  simp only [supplies_iff]
  constructor
  · rintro ⟨q, hpipeline, hcodebases, hregistry⟩
    obtain ⟨ds, hds, -⟩ := codebases_eq_ok.1 hcodebases
    refine ⟨⟨q.pipeline, hpipeline, ds, hds⟩, ?_⟩
    cases h : c.components.get? ⟨s.namespaceName, Component.registryName⟩ with
    | some o => exact ⟨o, rfl⟩
    | none =>
        rw [registryUrl, h] at hregistry
        cases hregistry
  · rintro ⟨⟨p, hpipeline, ds, hds⟩, o, ho⟩
    refine ⟨⟨p, ds.map (·.codebase), o.spec.url⟩, hpipeline, codebases_eq_ok.2 ⟨ds, hds, rfl⟩, ?_⟩
    rw [registryUrl, ho]
    rfl

/-- What is published is what the inputs are about, one after the other. -/
theorem Publishes.inputs {q : Plan} (h : c.Publishes s q) :
    List.Forall₂ (fun input x => c.codebaseAt ⟨s.namespaceName, input⟩ = some x)
      q.pipeline.spec.inputStreams q.codebases := by
  obtain ⟨ds, hds, hcodebases⟩ := codebases_eq_ok.1 h.codebases
  obtain ⟨names, hnames, predecessor, -, hall⟩ := consumed_eq_ok.1 hds
  obtain rfl := inputs_eq_ok hnames
  rw [← hcodebases]
  exact forall₂_codebaseAt hall

theorem exists_retirement : (∃ r, c.retirement s = .ok r) ↔ ∃ p, c.Supplies s p := by
  simp only [supplies_iff]
  constructor
  · rintro ⟨⟨env, ds⟩, h⟩
    obtain ⟨p, hp, hds, -⟩ := retirement_eq_ok.1 h
    exact ⟨p, hp, ds, hds⟩
  · rintro ⟨p, hp, ds, hds⟩
    exact ⟨_, retirement_eq_ok.2 ⟨p, hp, hds, rfl⟩⟩

end Cluster

end Conveyor
