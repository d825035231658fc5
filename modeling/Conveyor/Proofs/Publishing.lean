import Conveyor.Proofs.Provisioning

/-!
What the publication of codebases makes of a cluster: a verified stream for each of them, and the
release job. A verified stream is where the next stage looks for a codebase, and it may as well be
an input of the pipeline itself. Only where no input is a stream of the stage's own do the codebases
stay the same from one attempt to the next; in any case the later ones are among the earlier ones.
-/

namespace Conveyor

open Session Cluster
open Promotion (Consumed)

variable {config : Config} {s : Stage} {F : Error → Prop} {c c' : Cluster} {S : Prop}

namespace Cluster

/-! ### The codebases of a stage -/

theorem inputs_eq_ok {p : Pipeline} {names : List String} (h : Promotion.inputs p = .ok names) :
    names = p.spec.inputStreams := by
  unfold Promotion.inputs at h
  split at h
  · cases h
  · cases h
    rfl

/-- Inputs and what is consumed for them correspond. -/
theorem consumedForAll_mem {p : Pipeline} {predecessor : Option Stage} {inputs : List String}
    {ds : List Consumed} (h : c.consumedForAll s p predecessor inputs = .ok ds) :
    (∀ input ∈ inputs, ∃ d ∈ ds, c.consumedFor s p predecessor input = .ok d) ∧
      ∀ d ∈ ds, ∃ input ∈ inputs, c.consumedFor s p predecessor input = .ok d := by
  induction inputs generalizing ds with
  | nil =>
      cases h
      exact ⟨fun _ hi => absurd hi List.not_mem_nil, fun _ hd => absurd hd List.not_mem_nil⟩
  | cons input inputs ih =>
      obtain ⟨d, hd, rest, hrest, rfl⟩ := consumedForAll_cons_eq_ok.1 h
      obtain ⟨hinputs, hds⟩ := ih hrest
      constructor
      · refine List.forall_mem_cons.2 ⟨⟨d, List.mem_cons_self, hd⟩, fun i hi => ?_⟩
        obtain ⟨e, he, hi⟩ := hinputs i hi
        exact ⟨e, List.mem_cons_of_mem d he, hi⟩
      · refine List.forall_mem_cons.2 ⟨⟨input, List.mem_cons_self, hd⟩, fun e he => ?_⟩
        obtain ⟨i, hi, he⟩ := hds e he
        exact ⟨i, List.mem_cons_of_mem input hi, he⟩

/-- The codebase of an input is one of those that the stage publishes. -/
theorem mem_codebases {p : Pipeline} {xs : List String} (hxs : c.codebases s p = .ok xs)
    {input : String} (hinput : input ∈ p.spec.inputStreams) {x : ImageStream}
    (hx : c.imageStreams.get? ⟨s.namespaceName, input⟩ = some x) : x.spec.codebase ∈ xs := by
  obtain ⟨ds, hds, rfl⟩ := codebases_eq_ok.1 hxs
  obtain ⟨names, hnames, predecessor, -, hall⟩ := consumed_eq_ok.1 hds
  rw [inputs_eq_ok hnames] at hall
  obtain ⟨d, hd, hconsumed⟩ := (consumedForAll_mem hall).1 input hinput
  obtain ⟨source, hsource, hcodebase, -⟩ := consumedFor_eq_ok.1 hconsumed
  rw [hx] at hsource
  cases hsource
  exact hcodebase ▸ List.mem_map_of_mem hd

/-- Streams may come and change. As long as none goes, the predecessor stays and the inputs are
still about codebases of the stage, the stage publishes what the inputs say now. -/
theorem codebases_carry {p : Pipeline} {xs : List String} {R : String → String → Prop}
    (hxs : c.codebases s p = .ok xs)
    (hpredecessor : ∀ pipeline, c'.predecessor s pipeline = c.predecessor s pipeline)
    (hthere : ∀ k x, c.imageStreams.get? k = some x → ∃ y, c'.imageStreams.get? k = some y)
    (hinputs : ∀ input ∈ p.spec.inputStreams, ∀ x,
      c.imageStreams.get? ⟨s.namespaceName, input⟩ = some x →
        ∃ y, c'.imageStreams.get? ⟨s.namespaceName, input⟩ = some y ∧ y.spec.codebase ∈ xs ∧
          R x.spec.codebase y.spec.codebase) :
    ∃ ys, c'.codebases s p = .ok ys ∧ List.Forall₂ R xs ys := by
  obtain ⟨ds, hds, rfl⟩ := codebases_eq_ok.1 hxs
  obtain ⟨names, hnames, predecessor, hprevious, hall⟩ := consumed_eq_ok.1 hds
  obtain rfl := inputs_eq_ok hnames
  have hinput (input : String) (hin : input ∈ p.spec.inputStreams) (d : Consumed)
      (hd : c.consumedFor s p predecessor input = .ok d) :
      ∃ d', c'.consumedFor s p predecessor input = .ok d' ∧ R d.codebase d'.codebase := by
    obtain ⟨source, hsource, hcodebase, -⟩ := consumedFor_eq_ok.1 hd
    obtain ⟨source', hsource', hmem, hR⟩ := hinputs input hin source hsource
    rw [hcodebase]
    cases predecessor with
    | none => exact ⟨⟨_, source'⟩, consumedFor_eq_ok.2 ⟨source', hsource', rfl, rfl⟩, hR⟩
    | some q =>
        -- The predecessor publishes every codebase of the stage, whichever input it came by.
        obtain ⟨e, he, hcode⟩ := List.mem_map.1 hmem
        obtain ⟨input', -, he⟩ := (consumedForAll_mem hall).2 e he
        obtain ⟨source'', -, hcode', hverified⟩ := consumedFor_eq_ok.1 he
        rw [← hcode', hcode] at hverified
        obtain ⟨verified, hverified⟩ := hthere _ _ hverified
        exact ⟨⟨_, verified⟩, consumedFor_eq_ok.2 ⟨source', hsource', rfl, hverified⟩, hR⟩
  obtain ⟨ds', hds', hRs⟩ := consumedForAll_forall₂ hinput hall
  have hprevious' : c'.predecessor? s p.name = .ok predecessor := by
    rw [← hprevious, predecessor?, predecessor?, hpredecessor]
  refine ⟨ds'.map (·.codebase), codebases_eq_ok.2 ⟨ds', ?_, rfl⟩, ?_⟩
  · exact consumed_eq_ok.2 ⟨_, hnames, predecessor, hprevious', hds'⟩
  · rw [List.forall₂_map_left_iff, List.forall₂_map_right_iff]
    exact hRs

/-- No input of the stage's pipeline is a stream that the stage itself publishes in. -/
def Separate (s : Stage) (c : Cluster) : Prop :=
  ∀ p xs, c.pipelineOf s = .ok p → c.codebases s p = .ok xs →
    ∀ input ∈ p.spec.inputStreams, ∀ x ∈ xs,
      input ≠ Promotion.verifiedName p.name s.spec.name x

theorem UnderWay.separate (h : UnderWay config s c c') (hc : c.Separate s) : c'.Separate s := by
  intro p xs hp hxs
  rw [h.pipelineOf] at hp
  exact hc p xs hp ((h.codebases p hp xs).1 hxs)

/-- What the publication of a stage has to find out. -/
structure Publishes (s : Stage) (p : Plan) (c : Cluster) : Prop where
  pipeline : c.pipelineOf s = .ok p.pipeline
  codebases : c.codebases s p.pipeline = .ok p.codebases
  registry : c.registryUrl s.namespaceName = .ok p.registry

theorem Publishes.unique {p q : Plan} (h : c.Publishes s p) (k : c.Publishes s q) : p = q := by
  obtain ⟨pipeline, codebases, registry⟩ := p
  obtain ⟨hpipeline, hcodebases, hregistry⟩ := h
  obtain ⟨kpipeline, kcodebases, kregistry⟩ := k
  rw [hpipeline] at kpipeline
  cases kpipeline
  rw [hcodebases] at kcodebases
  cases kcodebases
  rw [hregistry] at kregistry
  cases kregistry
  rfl

/-- The plan of a publication as it is looked up. -/
def survey (s : Stage) (c : Cluster) : Except Error Plan := do
  let pipeline ← c.pipelineOf s
  let ds ← c.consumed s pipeline
  let registry ← c.registryUrl s.namespaceName
  .ok ⟨pipeline, ds.map (·.codebase), registry⟩

theorem survey_eq_ok {p : Plan} : c.survey s = .ok p ↔ c.Publishes s p := by
  simp only [survey, bind_eq_ok, Except.ok.injEq]
  constructor
  · rintro ⟨pipeline, hpipeline, ds, hds, registry, hregistry, rfl⟩
    exact ⟨hpipeline, codebases_eq_ok.2 ⟨ds, hds, rfl⟩, hregistry⟩
  · rintro ⟨hpipeline, hcodebases, hregistry⟩
    obtain ⟨ds, hds, hmap⟩ := codebases_eq_ok.1 hcodebases
    refine ⟨p.pipeline, hpipeline, ds, hds, p.registry, hregistry, ?_⟩
    rw [hmap]

theorem Plans.publishes {p : Plan} (h : c.Plans config s p) : c.Publishes s p :=
  ⟨h.pipeline, h.codebases, h.registry⟩

theorem UnderWay.publishes (h : UnderWay config s c c') (p : Plan) :
    c'.Publishes s p ↔ c.Publishes s p := by
  constructor
  · rintro ⟨hpipeline, hcodebases, hregistry⟩
    rw [h.pipelineOf] at hpipeline
    exact ⟨hpipeline, (h.codebases _ hpipeline _).1 hcodebases, h.registryUrl _ ▸ hregistry⟩
  · rintro ⟨hpipeline, hcodebases, hregistry⟩
    exact ⟨h.pipelineOf ▸ hpipeline, (h.codebases _ hpipeline _).2 hcodebases,
      h.registryUrl _ ▸ hregistry⟩

/-- A verified stream is written, and no input is one. -/
theorem underWay_stream {p : Plan} {x : String} {t : ImageStream} (hp : c.Publishes s p)
    (hseparate : c.Separate s) (hx : x ∈ p.codebases)
    (hstreams : c'.imageStreams = c.imageStreams.insert (p.streamKey s x) t)
    (hkept : Kept config s c c') (hstages : c'.stages = c.stages)
    (hcontents : c'.contents = c.contents.withStream s p x) : UnderWay config s c c' := by
  have hsame : c'.codebases s p.pipeline = .ok p.codebases := by
    have hpredecessor (pipeline : String) : c'.predecessor s pipeline = c.predecessor s pipeline :=
      predecessor_congr (fun _ _ _ => by rw [hstages]) pipeline
    have hthere (k : ObjectKey) (y : ImageStream) (hy : c.imageStreams.get? k = some y) :
        ∃ z, c'.imageStreams.get? k = some z := by
      rw [hstreams, Dict.get?_insert]
      split
      · exact ⟨t, rfl⟩
      · exact ⟨y, hy⟩
    obtain ⟨ys, hys, hR⟩ := codebases_carry (R := Eq) hp.codebases hpredecessor hthere
      fun input hinput y hy => by
        refine ⟨y, ?_, mem_codebases hp.codebases hinput hy, rfl⟩
        rw [hstreams, Dict.get?_insert_of_ne _ _ ?_, hy]
        -- The input would be a stream of the stage's own.
        intro hkey
        exact hseparate _ _ hp.pipeline hp.codebases input hinput x hx
          (congrArg ObjectKey.name hkey)
    rw [List.forall₂_eq_eq_eq] at hR
    rw [hys, hR]
  refine { hkept with codebases := fun q hq xs => ?_, aim := fun q hq => ?_ }
  · rw [hp.pipeline] at hq
    cases hq
    rw [hsame, hp.codebases]
  · rw [hcontents, hp.unique hq.publishes, Contents.aim_withStream]
    exact hq.publishes.unique hp ▸ hx

end Cluster

namespace Promotion

/-! ### One verified stream -/

/-- The stream is about the codebase and the image of the specification. -/
def Shows (spec : ImageStreamSpec) (t : ImageStream) : Prop :=
  t.spec.codebase = spec.codebase ∧ t.spec.imageName = spec.imageName

/-- The stream about the codebase and the image of a specification. -/
def corrected (spec : ImageStreamSpec) (t : ImageStream) : ImageStream :=
  { t with spec := { t.spec with codebase := spec.codebase, imageName := spec.imageName } }

/-- All ways in which the making of a verified stream ends, where failures may be any of `F`. -/
inductive Putting (F : Error → Prop) (key : ObjectKey) (spec : ImageStreamSpec) (c : Cluster) :
    Except Error Unit → Cluster → Prop
  | unknown {e : Error} (he : F e) : Putting F key spec c (.error e) c
  | kept {t : ImageStream} (ht : c.imageStreams.get? key = some t) (hshows : Shows spec t) :
      Putting F key spec c (.ok ()) c
  | uncorrected {t : ImageStream} {e : Error} (ht : c.imageStreams.get? key = some t)
      (hother : ¬ Shows spec t) (he : F e) :
      Putting F key spec c (.error (.downstream "update" Kind.imageStream.name key.name e)) c
  | corrected {t : ImageStream} (ht : c.imageStreams.get? key = some t)
      (hother : ¬ Shows spec t) :
      Putting F key spec c (.ok ()) (c.wrote imageStreamShelf key
        (Resource.versioned (Promotion.corrected spec t) (some c.nextVersion)))
  | unmade {e : Error} (hnone : c.imageStreams.get? key = none) (he : F e) :
      Putting F key spec c (.error (.downstream "create" Kind.imageStream.name key.name e)) c
  | made (hnone : c.imageStreams.get? key = none) :
      Putting F key spec c (.ok ()) (c.wrote imageStreamShelf key
        (Resource.stored ⟨.named key.name, spec⟩ key.namespaceName c.nextVersion))

theorem ensures_putVerified_putting {namespaceName name : String} {spec : ImageStreamSpec}
    (hc : c.Coherent) :
    (putVerified namespaceName name spec).Ensures F c
      (Putting F ⟨namespaceName, name⟩ spec c) := by
  let key : ObjectKey := ⟨namespaceName, name⟩
  refine ensures_request_bind.2 ⟨fun e he => .unknown he, ?_⟩
  simp only [serve]
  cases h : c.imageStreams.get? ⟨namespaceName, name⟩ with
  | some t =>
      refine ensures_ite (fun hshows => .kept h hshows) fun hother => ?_
      let t' := Promotion.corrected spec t
      have hkey : keyIn namespaceName t' = key := (hc.imageStreams.keyIn_eq h :)
      have hfound : (imageStreamShelf.get c).get? (keyIn namespaceName t') = some t := by
        rw [hkey]
        exact h
      have hserve : c.serve (.replaceImageStream namespaceName t') =
          (.ok (), c.wrote imageStreamShelf key
            (Resource.versioned t' (some c.nextVersion))) := by
        refine (replace_of_current hfound rfl).trans ?_
        rw [hkey]
        rfl
      exact (ensures_requestFor_of_served hserve).2
        ⟨fun e he => .uncorrected h hother he, .corrected h hother⟩
  | none =>
      have hserve : c.serve (.createImageStream namespaceName ⟨.named name, spec⟩) =
          (.ok (), c.wrote imageStreamShelf key
            (Resource.stored ⟨.named name, spec⟩ namespaceName c.nextVersion)) :=
        create_of_absent h
      exact (ensures_requestFor_of_served hserve).2 ⟨fun e he => .unmade h he, .made h⟩

/-- `S` stands for what makes sure that the publication does not change the plan. -/
theorem ensures_putVerified {p : Plan} {x : String} (hc : c.Coherent)
    (hS : S → c.Publishes s p ∧ c.Separate s) (hx : x ∈ p.codebases) :
    (putVerified s.namespaceName (verifiedName p.pipeline.name s.spec.name x)
      (verifiedSpec p.registry s.namespaceName x)).Ensures F c
        (Effect F config s S (fun _ : Unit => True) (fun _ d => d.withStream s p x) c) := by
  let key := p.streamKey s x
  have hway := UnderWay.refl config s c
  -- Both ways of writing the stream end in such a cluster.
  have hwritten (t : ImageStream)
      (hcontents : (c.wrote imageStreamShelf key t).contents = c.contents.withStream s p x) :
      Effect F config s S (fun _ : Unit => True) (fun _ d => d.withStream s p x) c (.ok ())
        (c.wrote imageStreamShelf key t) := by
    refine .reached (.of_stages rfl rfl rfl fun _ => rfl) (fun hs => ?_) (x := ()) trivial hcontents
    exact underWay_stream (hS hs).1 (hS hs).2 hx rfl (.of_stages rfl rfl rfl fun _ => rfl) rfl
      hcontents
  refine (ensures_putVerified_putting hc).mono fun r c' h => ?_
  cases h with
  | unknown he => exact .fault he hway _
  | uncorrected _ _ he => exact .fault he hway _
  | unmade _ he => exact .fault he hway _
  | @kept t h hshows =>
      have hsupply : p.supplyStream s x (some (Resource.unversioned t)) =
          some (Resource.unversioned t) := by
        rw [Plan.supplyStream, supply, ← hshows.1, ← hshows.2]
        rfl
      exact .done hway (x := ()) trivial
        (congrArg (fun t => { c.contents with imageStreams := t })
          (Objects.seen_kept h hsupply).symm)
  | corrected h _ =>
      exact hwritten _ (congrArg (fun t => { c.contents with imageStreams := t })
        (Objects.seen_replaced h rfl _))
  | made h =>
      exact hwritten _ (congrArg (fun t => { c.contents with imageStreams := t })
        (Objects.seen_created h rfl _))

/-! ### All verified streams -/

/-- All that a stage looks up before it publishes. -/
def survey (s : Stage) : Session Plan := do
  let pipeline ← pipelineOf s
  let ds ← consumed s pipeline
  let registry ← registryUrl s.namespaceName
  pure ⟨pipeline, ds.map (·.codebase), registry⟩

/-- Everything is looked up before anything is written. -/
theorem promote_eq (s : Stage) :
    promote s = survey s >>= fun p => each p.codebases fun x =>
      putVerified s.namespaceName (verifiedName p.pipeline.name s.spec.name x)
        (verifiedSpec p.registry s.namespaceName x) := by
  simp only [promote, survey, bind_assoc, pure_bind, each_map]

theorem reads_survey (s : Stage) : (survey s).Reads (Cluster.survey s) :=
  (reads_pipelineOf s).bind fun pipeline => (reads_consumed s pipeline).bind fun _ =>
    (reads_registryUrl s.namespaceName).bind fun _ => reads_pure _

/-- Either the look-ups end the publication, or the streams of the plan are put one after the
other. -/
theorem ensures_promote_of_plan {Q : Except Error Unit → Cluster → Prop}
    (stopped : ∀ e, F e ∨ (∀ p, ¬ c.Publishes s p) → Q (.error e) c)
    (published : ∀ p, c.Publishes s p → (each p.codebases fun x =>
      putVerified s.namespaceName (verifiedName p.pipeline.name s.spec.name x)
        (verifiedSpec p.registry s.namespaceName x)).Ensures F c Q) :
    (promote s).Ensures F c Q := by
  rw [promote_eq]
  refine (reads_survey s).ensures_bind (fun p h => published p (survey_eq_ok.1 h)) fun e he => ?_
  refine stopped e (he.symm.imp_right fun hno p hp => ?_)
  exact error_ne_ok (hno.symm.trans (survey_eq_ok.2 hp))

theorem ensures_promote (hc : c.Coherent) (hS : S → c.Separate s) :
    (promote s).Ensures F c
      (Effect F config s S (c.Publishes s ·) (fun p d => d.withStreams s p p.codebases) c) := by
  have hway := UnderWay.refl config s c
  refine ensures_promote_of_plan
    (fun e he => .stopped hway (he.imp (fun hF => ⟨e, hF⟩) id)) fun p hp => ?_
  refine (ensures_each_effect hc (S := S) (g := fun x contents => contents.withStream s p x)
    fun x hx c' hc' _ hway' => ?_).mono fun r c' h => h.reindex (fun _ _ => ⟨p, hp, ?_⟩)
      fun _ _ => ⟨(), trivial⟩
  · refine ensures_putVerified hc' (fun hs => ?_) hx
    exact ⟨((hway' hs).publishes p).2 hp, (hway' hs).separate (hS hs)⟩
  · exact Contents.foldl_withStream ..

end Promotion

/-! ### The release job -/

namespace ReleaseJob

theorem underWay_job {p : Pipeline} {j : ReleaseJob} (hp : c.pipelineOf s = .ok p)
    (hcontents : (c.wrote releaseJobShelf s.key j).contents = c.contents.withJob s p) :
    UnderWay config s c (c.wrote releaseJobShelf s.key j) := by
  refine .of_stages rfl rfl rfl rfl (fun _ => rfl) fun q hq => ?_
  have hsame := hq.pipeline
  rw [hp] at hsame
  cases hsame
  rw [hcontents, Contents.aim_withJob]

theorem ensures_put (hc : c.Coherent) :
    (put s).Ensures F c
      (Effect F config s S (fun p => c.pipelineOf s = .ok p) (fun p d => d.withJob s p) c) := by
  have hway := UnderWay.refl config s c
  unfold put
  refine (Promotion.reads_pipelineOf s).ensures_bind (fun p hp => ?_) fun e he => ?_
  · refine ensures_request_bind.2 ⟨fun e he => .fault he hway _, ?_⟩
    simp only [serve]
    cases h : c.releaseJobs.get? ⟨s.namespaceName, s.name⟩ with
    | some j =>
        have hkey : keyIn s.namespaceName j = s.key := hc.releaseJobs.keyIn_eq h
        have h : c.releaseJobs.get? s.key = some j := h
        refine ensures_ite (fun hsame => ?_) fun hdiffers => ?_
        · have hsupply : supply s.namespaceName (desired s p) (some (Resource.unversioned j)) =
              some (Resource.unversioned j) := by
            rw [supply, ← hsame]
            rfl
          exact .done hway hp (congrArg (fun t => { c.contents with releaseJobs := t })
            (Objects.seen_kept h hsupply).symm)
        · let j' : ReleaseJob := { j with spec := (desired s p).spec }
          let stored := Resource.versioned j' (some c.nextVersion)
          have hkey : keyIn s.namespaceName j' = s.key := hkey
          have hfound : (releaseJobShelf.get c).get? (keyIn s.namespaceName j') = some j := by
            rw [hkey]
            exact h
          have hserve : c.serve (.replaceReleaseJob s.namespaceName j') =
              (.ok (), c.wrote releaseJobShelf s.key stored) := by
            refine (replace_of_current hfound rfl).trans ?_
            rw [hkey]
            rfl
          have hcontents : (c.wrote releaseJobShelf s.key stored).contents =
              c.contents.withJob s p :=
            congrArg (fun t => { c.contents with releaseJobs := t })
              (Objects.seen_replaced h rfl _)
          have hway' : UnderWay config s c _ := underWay_job hp hcontents
          exact ensures_write_effect hserve hway'.toKept (fun _ => hway') hp hcontents
    | none =>
        let stored := Resource.stored (desired s p) s.namespaceName c.nextVersion
        have hserve : c.serve (.createReleaseJob s.namespaceName (desired s p)) =
            (.ok (), c.wrote releaseJobShelf s.key stored) := create_of_absent h
        have hcontents : (c.wrote releaseJobShelf s.key stored).contents = c.contents.withJob s p :=
          congrArg (fun t => { c.contents with releaseJobs := t }) (Objects.seen_created h rfl _)
        have hway' : UnderWay config s c _ := underWay_job hp hcontents
        exact ensures_write_effect hserve hway'.toKept (fun _ => hway') hp hcontents
  · refine .stopped hway (he.symm.imp (fun hF => ⟨e, hF⟩) fun hno p hp => ?_)
    exact error_ne_ok (hno.symm.trans hp)

end ReleaseJob

end Conveyor
