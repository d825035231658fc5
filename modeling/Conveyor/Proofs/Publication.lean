import Conveyor.Proofs.Scenario
import Conveyor.Proofs.Streams

/-!
How far a publication gets. Everything is looked up before the first stream is written, and then the
streams are put one after the other. So there are two kinds of failure: either nothing has changed,
or the codebases fall in two, those that are published and those that nothing was done for. The next
attempt starts from there.
-/

namespace Conveyor

open Session Cluster

variable {s : Stage} {p : Plan} {F : Error → Prop} {c c' c'' : Cluster}

theorem Plan.streamKey_injective (s : Stage) (p : Plan) : Function.Injective (p.streamKey s) :=
  fun _ _ h => Promotion.verifiedName_injective (congrArg ObjectKey.name h)

namespace Promotion

variable {key : ObjectKey} {spec : ImageStreamSpec} {x y z : Option ImageStream}

/-- What a key holds before a stream was put there, and after. -/
inductive Puts (key : ObjectKey) (spec : ImageStreamSpec) :
    Option ImageStream → Option ImageStream → Prop
  | kept {t : ImageStream} (hshows : Shows spec t) : Puts key spec (some t) (some t)
  | corrected {t : ImageStream} (hother : ¬ Shows spec t) (version : String) :
      Puts key spec (some t)
        (some (Resource.versioned (Promotion.corrected spec t) (some version)))
  | made (version : String) :
      Puts key spec none
        (some (Resource.stored ⟨.named key.name, spec⟩ key.namespaceName version))

theorem Puts.shows (h : Puts key spec x y) : ∃ t, y = some t ∧ Shows spec t := by
  cases h with
  | kept hshows => exact ⟨_, rfl, hshows⟩
  | corrected | made => exact ⟨_, rfl, rfl, rfl⟩

/-- A stream that was put there once is kept from then on. -/
theorem Puts.again (h : Puts key spec x y) (k : Puts key spec y z) : z = y := by
  obtain ⟨t, rfl, hshows⟩ := h.shows
  cases k with
  | kept => rfl
  | corrected hother => exact absurd hshows hother

/-- A stream that was there before keeps its tags and its metadata, and all of it if it was about
the codebase and the image already. -/
theorem Puts.repoints {u : ImageStream} (h : Puts key spec (some u) y) :
    ∃ t, y = some t ∧ u.Repoints t ∧ (Shows spec u → t = u) := by
  cases h with
  | kept => exact ⟨u, rfl, ⟨rfl, rfl⟩, fun _ => rfl⟩
  | corrected hother => exact ⟨_, rfl, ⟨rfl, rfl⟩, fun hshows => absurd hshows hother⟩

end Promotion

namespace Cluster

/-- The streams of these codebases have been put, and nothing else has happened. -/
structure Published (s : Stage) (p : Plan) (xs : List String) (c c' : Cluster) : Prop where
  put : ∀ x ∈ xs, Promotion.Puts (p.streamKey s x) (Promotion.verifiedSpec p.registry
    s.namespaceName x) (c.imageStreams.get? (p.streamKey s x))
      (c'.imageStreams.get? (p.streamKey s x))
  others : ∀ k, (∀ x ∈ xs, k ≠ p.streamKey s x) →
    c'.imageStreams.get? k = c.imageStreams.get? k
  rest : { c' with imageStreams := c.imageStreams, revision := c.revision } = c

theorem published_nil (s : Stage) (p : Plan) (c : Cluster) : c.Published s p [] c :=
  ⟨fun _ hx => absurd hx List.not_mem_nil, fun _ _ => rfl, rfl⟩

theorem published_kept {x : String} {t : ImageStream}
    (ht : c.imageStreams.get? (p.streamKey s x) = some t)
    (hshows : Promotion.Shows (Promotion.verifiedSpec p.registry s.namespaceName x) t) :
    c.Published s p [x] c := by
  refine ⟨fun y hy => ?_, fun _ _ => rfl, rfl⟩
  obtain rfl := List.mem_singleton.1 hy
  rw [ht]
  exact .kept hshows

theorem published_wrote {x : String} {t : ImageStream}
    (hput : Promotion.Puts (p.streamKey s x) (Promotion.verifiedSpec p.registry s.namespaceName x)
      (c.imageStreams.get? (p.streamKey s x)) (some t)) :
    c.Published s p [x] (c.wrote imageStreamShelf (p.streamKey s x) t) := by
  refine ⟨fun y hy => ?_, fun k hk => ?_, rfl⟩
  · obtain rfl := List.mem_singleton.1 hy
    have hget : (c.wrote imageStreamShelf (p.streamKey s y) t).imageStreams.get?
        (p.streamKey s y) = some t := Dict.get?_insert_self ..
    rwa [hget]
  · exact Dict.get?_insert_of_ne _ _ (hk x List.mem_cons_self)

/-- One more codebase. It may be one of those before; its stream is kept then. -/
theorem Published.append {xs : List String} {x : String} (h : c.Published s p xs c')
    (k : c'.Published s p [x] c'') : c.Published s p (xs ++ [x]) c'' where
  put y hy := by
    by_cases hyx : y = x
    · subst hyx
      have hput := k.put y List.mem_cons_self
      by_cases hmem : y ∈ xs
      · -- It is its second turn, so that its stream is as it should be already.
        have hputs := h.put y hmem
        rwa [hputs.again hput]
      · have hsame := h.others (p.streamKey s y) fun z hz hkey => by
          obtain rfl := p.streamKey_injective s hkey
          exact hmem hz
        rwa [hsame] at hput
    · have hmem : y ∈ xs := (List.mem_append.1 hy).resolve_right fun h =>
        hyx (List.mem_singleton.1 h)
      have hsame := k.others (p.streamKey s y) fun z hz hkey => by
        obtain rfl := List.mem_singleton.1 hz
        exact hyx (p.streamKey_injective s hkey)
      rw [hsame]
      exact h.put y hmem
  others l hl := by
    have hxs (y : String) (hy : y ∈ xs) := hl y (List.mem_append_left _ hy)
    have hx (y : String) (hy : y ∈ [x]) := hl y (List.mem_append_right _ hy)
    rw [k.others l hx, h.others l hxs]
  rest := by
    have hk := k.rest
    have hh := h.rest
    rw [← hk] at hh
    exact hh

/-- A stream that was there is there, with its tags and metadata; it was not written where each
codebase of it that has been published finds its image there already. -/
theorem Published.repoints {xs : List String} (h : c.Published s p xs c') {k : ObjectKey}
    {u : ImageStream} (hu : c.imageStreams.get? k = some u) :
    ∃ t, c'.imageStreams.get? k = some t ∧ u.Repoints t ∧
      ((∀ x ∈ xs, k = p.streamKey s x →
        Promotion.Shows (Promotion.verifiedSpec p.registry s.namespaceName x) u) → t = u) := by
  by_cases hk : ∀ x ∈ xs, k ≠ p.streamKey s x
  · exact ⟨u, (h.others k hk).trans hu, ⟨rfl, rfl⟩, fun _ => rfl⟩
  · obtain ⟨x, hx, rfl⟩ : ∃ x ∈ xs, k = p.streamKey s x := by simpa using hk
    have hput := h.put x hx
    rw [hu] at hput
    obtain ⟨t, ht, hrepoints, hsame⟩ := hput.repoints
    exact ⟨t, ht, hrepoints, fun hshows => hsame (hshows x hx rfl)⟩

end Cluster

namespace Promotion

/-- A round that goes well publishes its codebase, and a round that fails changes nothing. -/
theorem Putting.published {x : String} {r : Except Error Unit}
    (h : Putting F (p.streamKey s x) (verifiedSpec p.registry s.namespaceName x) c r c') :
    (∃ e, r = .error e ∧ c' = c) ∨ r = .ok () ∧ c.Published s p [x] c' := by
  cases h with
  | unknown | uncorrected | unmade => exact .inl ⟨_, rfl, rfl⟩
  | kept ht hshows => exact .inr ⟨rfl, published_kept ht hshows⟩
  | corrected ht hother =>
      refine .inr ⟨rfl, published_wrote ?_⟩
      rw [ht]
      exact .corrected hother _
  | made hnone =>
      refine .inr ⟨rfl, published_wrote ?_⟩
      rw [hnone]
      exact .made _

/-- How far a publication by a plan gets: all codebases are published, or only those before the one
that it stops at. It may stop earlier still, at something that it looks up for all of them. -/
inductive Reaches (F : Error → Prop) (s : Stage) (p : Plan) (c : Cluster) :
    Except Error Unit → Cluster → Prop
  | all {c' : Cluster} (h : c.Published s p p.codebases c') : Reaches F s p c (.ok ()) c'
  | upTo {c' : Cluster} {e : Error} (before : List String) (x : String) (after : List String)
      (hcodebases : p.codebases = before ++ x :: after) (h : c.Published s p before c')
      (hstop : Putting F (p.streamKey s x) (verifiedSpec p.registry s.namespaceName x) c'
        (.error e) c') :
      Reaches F s p c (.error e) c'
  | none {e : Error} (he : F e) : Reaches F s p c (.error e) c

theorem Reaches.published {r : Except Error Unit} (h : Reaches F s p c r c') :
    ∃ xs, (∀ x ∈ xs, x ∈ p.codebases) ∧ c.Published s p xs c' := by
  cases h with
  | all h => exact ⟨_, fun _ hx => hx, h⟩
  | upTo before x after hcodebases h =>
      exact ⟨before, fun y hy => hcodebases ▸ List.mem_append_left _ hy, h⟩
  | none => exact ⟨[], fun _ hx => absurd hx List.not_mem_nil, published_nil s p c⟩

/-- A publication that finds all it needs gets as far as failures let it, and one that does not
leaves everything as it is. -/
theorem ensures_promote_reaches (hc : c.Coherent) :
    (promote s).Ensures F c fun r c' =>
      ((∀ p, ¬ c.Publishes s p) → (∃ e, r = .error e) ∧ c' = c) ∧
        ∀ p, c.Publishes s p → Reaches F s p c r c' := by
  refine ensures_promote_of_plan (fun e he => ⟨fun _ => ⟨⟨e, rfl⟩, rfl⟩, fun p hp => ?_⟩)
    fun p hp => ?_
  · exact .none (he.resolve_right fun hno => hno p hp)
  have hreaches : (each p.codebases fun x =>
      putVerified s.namespaceName (verifiedName p.pipeline.name s.spec.name x)
        (verifiedSpec p.registry s.namespaceName x)).Ensures F c (Reaches F s p c) := by
    refine ensures_each (I := fun after c' => c'.Coherent ∧
      ∃ before, p.codebases = before ++ after ∧ c.Published s p before c') ?_ ?_
      ⟨hc, [], rfl, published_nil s p c⟩
    · rintro x after c' ⟨hc', before, hcodebases, hbefore⟩
      refine ((ensures_putVerified_putting hc').and (hc'.ensures _)).mono ?_
      rintro r c'' ⟨hputting, hc''⟩
      rcases hputting.published with ⟨e, rfl, rfl⟩ | ⟨rfl, hpublished⟩
      · exact .upTo before x after hcodebases hbefore hputting
      · exact ⟨hc'', before ++ [x], by simp [hcodebases], hbefore.append hpublished⟩
    · rintro c' ⟨-, before, hcodebases, hbefore⟩
      rw [List.append_nil] at hcodebases
      exact .all (hcodebases ▸ hbefore)
  refine hreaches.mono fun r c' h => ⟨fun hno => absurd hp (hno p), fun q hq => ?_⟩
  exact hq.unique hp ▸ h

/-! ### When the stages cannot be listed -/

theorem run_predecessor_of_refused {o : ObservedCluster} {e : Error}
    (h : o.refusal .listStages = some e) (pipeline : String) :
    ((s.predecessor pipeline).run ObservedCluster.client o).1 = .error e := by
  have hlist : ((request (.listStages s.namespaceName)).run ObservedCluster.client o).1 =
      .error e := ObservedCluster.answer_of_refusal h
  have hsiblings : ((s.siblings pipeline).run ObservedCluster.client o).1 = .error e :=
    congrArg Prod.fst (run_bind_of_error hlist)
  exact congrArg Prod.fst (run_bind_of_error hsiblings)

theorem run_consumed_of_refused {o : ObservedCluster} {e : Error} (hlater : s.isFirst = false)
    (h : o.refusal .listStages = some e) (pipeline : Pipeline) :
    ∃ e', ((consumed s pipeline).run ObservedCluster.client o).1 = .error e' := by
  unfold consumed
  cases inputs pipeline with
  | error e' => exact ⟨e', rfl⟩
  | ok names =>
      have hpredecessor := run_predecessor_of_refused (s := s) h pipeline.name
      have hsome : ((some <$> s.predecessor pipeline.name).run ObservedCluster.client o).1 =
          .error e := congrArg Prod.fst (run_bind_of_error hpredecessor)
      rw [hlater]
      exact ⟨e, congrArg Prod.fst (run_bind_of_error hsome)⟩

/-- The stages are listed for the predecessor, so that the first stage can do without. -/
theorem run_survey_of_refused {o : ObservedCluster} {e : Error} (hlater : s.isFirst = false)
    (h : o.refusal .listStages = some e) :
    ∃ e', ((survey s).run ObservedCluster.client o).1 = .error e' := by
  have hasks : (pipelineOf s).Asks (·.operation ≠ .listStages) :=
    (asks_request nofun).bind fun found => by cases found <;> trivial
  have hkeep := ObservedCluster.refusal_run hasks o
  cases hfound : ((pipelineOf s).run ObservedCluster.client o).1 with
  | error e' => exact ⟨e', congrArg Prod.fst (run_bind_of_error hfound)⟩
  | ok pipeline =>
      obtain ⟨e', he'⟩ := run_consumed_of_refused hlater (hkeep.trans h) pipeline
      rw [survey, run_bind_of_ok hfound]
      exact ⟨e', congrArg Prod.fst (run_bind_of_error he')⟩

theorem run_promote_of_refused {o : ObservedCluster} {e : Error} (hlater : s.isFirst = false)
    (h : o.refusal .listStages = some e) :
    (∃ e', ((promote s).run ObservedCluster.client o).1 = .error e') ∧
      ((promote s).run ObservedCluster.client o).2.cluster.calm = o.cluster.calm := by
  obtain ⟨e', he'⟩ := run_survey_of_refused hlater h
  have hsame : ((survey s).run ObservedCluster.client o).2.cluster.calm = o.cluster.calm :=
    (ObservedCluster.run_of_ensures o.failsWith_pending ((reads_survey s).ensures _ _)).1
  rw [promote_eq, run_bind_of_error he']
  exact ⟨⟨e', rfl⟩, hsame⟩

end Promotion

namespace Stage

/-- **A publication looks everything up before it writes, and it writes a prefix.** Where something
is missing or the stages cannot be listed, it fails and everything is as it was. Otherwise the
codebases of the inputs are published in their order, all of them when it succeeds, and those before
the one that it stopped at when it fails, which takes a failure that was pending. In either case
every stream that was there is there still with its tags and metadata, unwritten if it was about its
codebase and image already. -/
theorem publication_writes_prefix (s : Stage) {o : ObservedCluster}
    (ho : o.cluster.Reachable) :
    let c := o.cluster.calm
    let run := (Promotion.promote s).run ObservedCluster.client o
    let c' := run.2.cluster.calm
    ((∀ p, ¬ c.Supplies s p) ∨
        c.components.get? ⟨s.namespaceName, Component.registryName⟩ = none ∨
        s.isFirst = false ∧ (o.refusal .listStages).isSome = true →
      (∃ e, run.1 = .error e) ∧ c' = c) ∧
    ∀ p, c.Publishes s p →
      List.Forall₂ (fun input x => c.codebaseAt ⟨s.namespaceName, input⟩ = some x)
        p.pipeline.spec.inputStreams p.codebases ∧
      Promotion.Reaches o.Pending s p c run.1 c' ∧
      ∀ k u, c.imageStreams.get? k = some u →
        ∃ t, c'.imageStreams.get? k = some t ∧ u.Repoints t ∧
          ((∀ x ∈ p.codebases, k = p.streamKey s x →
            Promotion.Shows (Promotion.verifiedSpec p.registry s.namespaceName x) u) →
              t = u) := by
  intro c run c'
  obtain ⟨hmissing, hreaches⟩ := ObservedCluster.run_of_ensures o.failsWith_pending
    (Promotion.ensures_promote_reaches (s := s) ho.coherent.calm)
  refine ⟨?_, fun p hp => ⟨hp.inputs, hreaches p hp, fun k u hu => ?_⟩⟩
  · rintro (hno | hno | ⟨hlater, hrefused⟩)
    · exact hmissing fun q hq => by
        obtain ⟨⟨p, hp⟩, -⟩ := exists_publishes.1 ⟨q, hq⟩
        exact hno p hp
    · exact hmissing fun q hq => by
        obtain ⟨-, a, ha⟩ := exists_publishes.1 ⟨q, hq⟩
        cases hno.symm.trans ha
    · obtain ⟨e, he⟩ := Option.isSome_iff_exists.1 hrefused
      exact Promotion.run_promote_of_refused hlater he
  · obtain ⟨xs, hxs, hpublished⟩ := (hreaches p hp).published
    obtain ⟨t, ht, hrepoints, hsame⟩ := hpublished.repoints hu
    exact ⟨t, ht, hrepoints, fun hshows => hsame fun x hx => hshows x (hxs x hx)⟩

open Sample in
/-- The first codebase is published once for two inputs, the second one is where it stops. -/
theorem publication_writes_prefix_of_three_inputs :
    let o := (({} : World).run arrangingThree).observed
    let s := stage "dev" 0
    let p : Plan :=
      ⟨Resource.stored { pipeline with
          spec.inputStreams := ["app-main", "app-release", "library-main"] } "edp" (versionText 1),
        ["app", "app", "library"], "registry"⟩
    let run := (Promotion.promote s).run ObservedCluster.client o
    o.cluster.calm.Publishes s p ∧
      run.1 = .error (.downstream "create" Kind.imageStream.name "mobile-dev-library-verified"
        (Cluster.injectedFault .createImageStream)) ∧
      Promotion.Reaches o.Pending s p o.cluster.calm run.1 run.2.cluster.calm := by
  intro o s p run
  have hp : o.cluster.calm.Publishes s p :=
    ⟨by decide +kernel, by decide +kernel, by decide +kernel⟩
  obtain ⟨-, hreaches⟩ := publication_writes_prefix s (World.reachable_run arrangingThree)
  exact ⟨hp, by decide +kernel, (hreaches p hp).2.1⟩

end Stage

end Conveyor
