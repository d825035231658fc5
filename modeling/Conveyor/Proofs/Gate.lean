import Conveyor.Proofs.Delivery
import Conveyor.Proofs.Predecessors

/-!
The promotion gate. A stage that is not the first one publishes a codebase only when its predecessor
has published it, and no stream is ever taken away; so whatever is published has come through all
the stages before. A status of success is no weaker, since it is written only by a reconcile that
has published everything.

The gate holds in all states that reconciles with any failures in them lead to. A promotion may well
be cut short between two streams. What makes the step go through is that the streams of the
pipeline's stages are told apart by their names, from each other and from the inputs.
-/

namespace Conveyor

open Session Cluster

variable {config : Config} {home : String} {p : Pipeline} {s t q : Stage} {x : String}
  {xs : Set String} {F : Error → Prop} {c c' : Cluster} {now : Timestamp}

/-! ### Statuses -/

namespace Request

/-- The request writes no status. -/
def KeepsStatus : Request → Prop
  | .patchStageStatus .. => False
  | _ => True

theorem keepsStatus_of_part_ne {r : Request} (h : r.part ≠ some .stages) : r.KeepsStatus := by
  cases r <;> trivial

end Request

namespace Cluster

/-- Every stage has the status that it had. -/
def KeepsStatuses (c c' : Cluster) : Prop :=
  ∀ k t', c'.stages.get? k = some t' → ∃ t, c.stages.get? k = some t ∧ t'.status = t.status

theorem KeepsStatuses.refl (c : Cluster) : c.KeepsStatuses c := fun _ t' ht' => ⟨t', ht', rfl⟩

theorem KeepsStatuses.trans {c'' : Cluster} (h : c.KeepsStatuses c') (k : c'.KeepsStatuses c'') :
    c.KeepsStatuses c'' := by
  intro l t'' ht''
  obtain ⟨t', ht', hstatus'⟩ := k l t'' ht''
  obtain ⟨t, ht, hstatus⟩ := h l t' ht'
  exact ⟨t, ht, hstatus'.trans hstatus⟩

theorem keepsStatuses_of_insert {key : ObjectKey} {u : Stage} (hs : c.stages.get? key = some s)
    (hc' : c'.stages = c.stages.insert key u) (hu : u.status = s.status) : c.KeepsStatuses c' := by
  intro k t' ht'
  rw [hc', Dict.get?_insert] at ht'
  split at ht'
  · next h =>
    subst h
    cases ht'
    exact ⟨s, hs, hu⟩
  · exact ⟨t', ht', rfl⟩

theorem keepsStatuses_serve {r : Request} (h : r.KeepsStatus) (c : Cluster) :
    c.KeepsStatuses (c.serve r).2 := by
  cases r with
  | patchStageStatus => exact h.elim
  | patchStageFinalizers n m version finalizers =>
      simp only [serve, patchFinalizers]
      split
      · exact .refl c
      · next s hs =>
        split
        · split
          · intro k t' ht'
            rw [Dict.get?_erase] at ht'
            split at ht'
            · cases ht'
            · exact ⟨t', ht', rfl⟩
          · exact keepsStatuses_of_insert hs rfl rfl
        · exact .refl c
  | patchStageOwnership n m owners labels =>
      simp only [serve, patchOwnership]
      split
      · exact .refl c
      · next s hs => exact keepsStatuses_of_insert hs rfl rfl
  | _ =>
      intro k t' ht'
      rw [stages_serve (by intro hpart; cases hpart)] at ht'
      exact ⟨t', ht', rfl⟩

end Cluster

namespace Stage

theorem asks_ensureFinalizer_statuses (s : Stage) : s.ensureFinalizer.Asks (·.KeepsStatus) :=
  asks_ensureFinalizer_of fun _ _ => trivial

theorem asks_provisionOwned_statuses (config : Config) (s : Stage) :
    (s.provisionOwned config).Asks (·.KeepsStatus) := by
  refine Asks.bind (asks_ensureOwnership_of (fun r hr => ?_) fun _ _ => trivial) fun _ => ?_
  · have hread : r.Within [] := Request.within_of_isRead hr
    exact Request.keepsStatus_of_part_ne (hread.part_ne List.not_mem_nil)
  · refine (asks_provision config s).mono fun r hr => ?_
    exact Request.keepsStatus_of_part_ne (hr.part_ne (by decide))

/-- The write of a status changes that one only. -/
theorem exists_of_writeStage {d : Cluster} {status : StageStatus} (hd : c.KeepsStatuses d)
    (ht : d.stages.get? s.key = some t) (w : StageWrite) {k : ObjectKey} {t' : Stage}
    (ht' : (d.writeStage s.key { t with status := some status } w).stages.get? k = some t') :
    ∃ u, c.stages.get? k = some u ∧
      (t'.status = u.status ∨ k = s.key ∧ t'.status = some status) := by
  rw [writeStage, Dict.get?_insert] at ht'
  split at ht'
  · next hk =>
    cases ht'
    obtain ⟨u, hu, -⟩ := hd s.key t ht
    exact ⟨u, hk ▸ hu, .inr ⟨hk.symm, rfl⟩⟩
  · obtain ⟨u, hu, hstatus⟩ := hd k t' ht'
    exact ⟨u, hu, .inl hstatus⟩

/-- A status that a reconcile has written is one of failure, unless the reconcile came back with
success, and then the stage has it. -/
theorem ensures_reconcile_statuses (config : Config) (now : Timestamp)
    (hlive : s.isBeingDeleted = false) :
    (s.reconcile config now).Ensures F c fun r c' => ∀ k t', c'.stages.get? k = some t' →
      ∃ t, c.stages.get? k = some t ∧ (t'.status = t.status ∨
        (∃ e, t'.status = some (.failed now e s.status)) ∨ k = s.key ∧ ∃ a, r = .ok a) := by
  rw [reconcile, if_neg (by rw [hlive]; decide)]
  have hkeep (r : Request) (d : Cluster) (hr : r.KeepsStatus) (hd : c.KeepsStatuses d) :
      c.KeepsStatuses (d.serve r).2 := hd.trans (keepsStatuses_serve hr d)
  -- Where the statuses are still those of the start, there is nothing to tell.
  have hsame {r : Except Error Action} {d : Cluster} (hd : c.KeepsStatuses d) :
      ∀ k t', d.stages.get? k = some t' → ∃ t, c.stages.get? k = some t ∧ (t'.status = t.status ∨
        (∃ e, t'.status = some (.failed now e s.status)) ∨ k = s.key ∧ ∃ a, r = .ok a) := by
    intro k t' ht'
    obtain ⟨t, ht, hstatus⟩ := hd k t' ht'
    exact ⟨t, ht, .inl hstatus⟩
  refine (s.asks_ensureFinalizer_statuses.ensures hkeep (.refl c)).bind ?_ fun e d hd => hsame hd
  intro added c₁ hc₁
  refine ensures_attempt_bind.2 (((s.asks_provisionOwned_statuses config).ensures hkeep hc₁).mono ?_)
  rintro (e | u) c₂ hc₂
  · have hdate : (StageStatus.failed now e s.status).lastTimeUpdated = some now := rfl
    refine ensures_attempt_bind.2 ((ensures_writeStatus_cases hdate).mono ?_)
    rintro r c₃ (⟨e', -, rfl⟩ | ⟨t, -, ht, rfl⟩)
    · exact hsame hc₂
    · intro k t' ht'
      obtain ⟨u, hu, hstatus⟩ := exists_of_writeStage hc₂ ht .status ht'
      exact ⟨u, hu, hstatus.imp_right fun hwritten => .inl ⟨e, hwritten.2⟩⟩
  · have hdate : (StageStatus.provisioned now s.status).lastTimeUpdated = some now := rfl
    refine (ensures_writeStatus_cases hdate).bind ?_ ?_
    · rintro u c₃ (⟨e', h, -⟩ | ⟨t, -, ht, rfl⟩)
      · exact absurd h.symm error_ne_ok
      · intro k t' ht'
        obtain ⟨v, hv, hstatus⟩ := exists_of_writeStage hc₂ ht .status ht'
        exact ⟨v, hv, hstatus.imp_right fun hwritten => .inr ⟨hwritten.1, _, rfl⟩⟩
    · rintro e c₃ (⟨e', -, rfl⟩ | ⟨t, h, -, -⟩)
      · exact hsame hc₂
      · exact absurd h error_ne_ok

end Stage

/-! ### The gate -/

namespace Cluster

/-- The stage has a verified stream for the codebase. -/
def HasVerified (home : String) (p : Pipeline) (s : Stage) (x : String) (c : Cluster) : Prop :=
  c.imageStreams.contains ⟨home, Promotion.verifiedName p.name s.spec.name x⟩ = true

instance : Decidable (c.HasVerified home p s x) := inferInstanceAs (Decidable (_ = true))

/-- The stage and all stages before it, down to one of order 0, have verified streams for the
codebase. -/
inductive Promoted (home : String) (p : Pipeline) (x : String) (c : Cluster) : Stage → Prop where
  | first {s : Stage} (hfirst : s.spec.order = 0) (h : c.HasVerified home p s x) :
      Promoted home p x c s
  | after {s q : Stage}
      (hprevious : Stage.previousOf s.spec.order (c.members home p.name) = some q)
      (h : c.HasVerified home p s x) (hq : Promoted home p x c q) : Promoted home p x c s

/-- The pipeline is stored under its own name, and its stages are live. Their verified streams for
the codebases `xs`, with those of the inputs among them, are told apart by their names, from each
other and from the inputs. -/
structure Distinguishes (home : String) (p : Pipeline) (xs : Set String) (c : Cluster) : Prop where
  pipeline : c.pipelines.get? ⟨home, p.name⟩ = some p
  live : ∀ s ∈ c.members home p.name, s.isBeingDeleted = false
  feeds : ∀ x, c.Feeds home p x → x ∈ xs
  streams : ∀ s ∈ c.members home p.name, ∀ t ∈ c.members home p.name, ∀ x ∈ xs, ∀ y ∈ xs,
    Promotion.verifiedName p.name s.spec.name x = Promotion.verifiedName p.name t.spec.name y →
      s = t ∧ x = y
  inputs : ∀ s ∈ c.members home p.name, ∀ x ∈ xs,
    Promotion.verifiedName p.name s.spec.name x ∉ p.spec.inputStreams

/-- Nothing has passed a stage that has not passed the one before. -/
structure Gated (home : String) (p : Pipeline) (xs : Set String) (c : Cluster) : Prop
    extends Distinguishes home p xs c where
  coherent : c.Coherent
  gate : ∀ s ∈ c.members home p.name, ∀ x ∈ xs, c.HasVerified home p s x →
    s.spec.order = 0 ∨ ∃ q,
      Stage.previousOf s.spec.order (c.members home p.name) = some q ∧ c.HasVerified home p q x
  success : ∀ s ∈ c.members home p.name, ∀ status, s.status = some status →
    status.result = "success" → ∀ input ∈ p.spec.inputStreams, ∃ x,
      c.codebaseAt ⟨home, input⟩ = some x ∧ c.HasVerified home p s x

theorem hasVerified_iff : c.HasVerified home p s x ↔
    (c.codebaseAt ⟨home, Promotion.verifiedName p.name s.spec.name x⟩).isSome = true := by
  rw [HasVerified, Dict.contains, codebaseAt, Option.isSome_map]

theorem hasVerified_congr (h : t.identity = s.identity) :
    c.HasVerified home p t x ↔ c.HasVerified home p s x := by
  rw [HasVerified, HasVerified, Stage.spec_of_identity h]

theorem PromotesOnly.hasVerified (h : c.PromotesOnly s c') (ht : c.HasVerified home p t x) :
    c'.HasVerified home p t x :=
  hasVerified_iff.2 (h.isSome_codebaseAt (hasVerified_iff.1 ht))

/-- A stage is among the stages of its pipeline as long as it is known by the same. -/
theorem SameStages.member_before (h : c.SameStages c') (hc : c.Coherent)
    (ht : t ∈ c'.members home p.name) {u : Stage} (hu : c.stages.get? t.key = some u) :
    u ∈ c.members home p.name ∧ u.identity = t.identity := by
  obtain ⟨v, hv, hsame⟩ := h.symm.exists_member ht
  have hstored := (hc.mem_members.1 hv).1
  rw [Stage.key_of_identity hsame, hu] at hstored
  cases hstored
  exact ⟨hv, hsame⟩

namespace Distinguishes

theorem pipelineOf (h : c.Distinguishes home p xs) (hc : c.Coherent)
    (hs : s ∈ c.members home p.name) : c.pipelineOf s = .ok p := by
  obtain ⟨-, rfl, hname⟩ := hc.mem_members.1 hs
  exact found_eq_ok.2 (hname ▸ h.pipeline)

theorem namesPipeline (h : c.Distinguishes home p xs) (hc : c.Coherent)
    (hs : s ∈ c.members home p.name) : c.NamesPipeline s := by
  intro q hq
  obtain rfl : q = p := Except.ok.inj (hq.symm.trans (h.pipelineOf hc hs))
  exact (hc.mem_members.1 hs).2.2.symm

/-- A stage of the pipeline writes to its own verified streams. -/
theorem changes (h : c.Distinguishes home p xs) (hc : c.Coherent) (hs : s ∈ c.members home p.name)
    (hstreams : c.PromotesOnly s c') (name : String) :
    c'.imageStreams.get? ⟨home, name⟩ = c.imageStreams.get? ⟨home, name⟩ ∨
      c.Supplies s p ∧ ∃ x ∈ xs, c.Feeds home p x ∧
        name = Promotion.verifiedName p.name s.spec.name x := by
  have hp := h.pipelineOf hc hs
  have hhome : s.namespaceName = home := (hc.mem_members.1 hs).2.1
  rcases hstreams with hsame | ⟨plan, hplan, hpromotes⟩
  · exact .inl (by rw [hsame])
  obtain rfl : p = plan.pipeline := Except.ok.inj (hp.symm.trans hplan.pipeline)
  refine (hpromotes ⟨home, name⟩).imp_right ?_
  rintro ⟨x, hx, hkey, -⟩
  obtain ⟨ds, hds, -⟩ := codebases_eq_ok.1 hplan.codebases
  have hfeeds : c.Feeds home plan.pipeline x := hhome ▸ (mem_codebases_iff hplan.codebases).1 hx
  exact ⟨supplies_iff.2 ⟨hplan.pipeline, ds, hds⟩, x, h.feeds x hfeeds, hfeeds,
    congrArg ObjectKey.name hkey⟩

/-- The inputs are about what they were about. -/
theorem codebaseAt_input (h : c.Distinguishes home p xs) (hc : c.Coherent)
    (hs : s ∈ c.members home p.name) (hstreams : c.PromotesOnly s c') {input : String}
    (hinput : input ∈ p.spec.inputStreams) :
    c'.codebaseAt ⟨home, input⟩ = c.codebaseAt ⟨home, input⟩ := by
  rcases h.changes hc hs hstreams input with hsame | ⟨-, x, hx, -, rfl⟩
  · rw [codebaseAt, codebaseAt, hsame]
  · exact absurd hinput (h.inputs s hs x hx)

/-- It takes more than the reconciles of the pipeline's stages to mix the streams up. -/
theorem after (h : c.Distinguishes home p xs) (hc : c.Coherent) (hc' : c'.Coherent)
    (hs : s ∈ c.members home p.name) (hkept : Kept config s c c')
    (hstreams : c.PromotesOnly s c') : c'.Distinguishes home p xs := by
  have hsame := hkept.sameStages (hc.mem_members.1 hs).1
  exact
    { pipeline := hkept.pipelines ▸ h.pipeline
      live := fun t' ht' => by
        obtain ⟨t, ht, hidentity⟩ := hsame.symm.exists_member ht'
        exact (Stage.isBeingDeleted_of_identity hidentity).symm.trans (h.live t ht)
      feeds := by
        rintro x ⟨input, hinput, hx⟩
        rw [h.codebaseAt_input hc hs hstreams hinput] at hx
        exact h.feeds x ⟨input, hinput, hx⟩
      streams := fun t' ht' u' hu' x hx y hy hname => by
        obtain ⟨t, ht, htt'⟩ := hsame.symm.exists_member ht'
        obtain ⟨u, hu, huu'⟩ := hsame.symm.exists_member hu'
        rw [← Stage.spec_of_identity htt', ← Stage.spec_of_identity huu'] at hname
        obtain ⟨rfl, hxy⟩ := h.streams t ht u hu x hx y hy hname
        refine ⟨hc'.eq_of_key_eq ht' hu' ?_, hxy⟩
        exact (Stage.key_of_identity htt').symm.trans (Stage.key_of_identity huu')
      inputs := fun t' ht' x hx => by
        obtain ⟨t, ht, hidentity⟩ := hsame.symm.exists_member ht'
        exact Stage.spec_of_identity hidentity ▸ h.inputs t ht x hx }

end Distinguishes

namespace Gated

/-- A new stream of a stage is about a codebase that the stage has been supplied with. -/
theorem gate_after (h : c.Gated home p xs) (hs : s ∈ c.members home p.name)
    (hstreams : c.PromotesOnly s c') (ht : t ∈ c.members home p.name) (hx : x ∈ xs)
    (hverified : c'.HasVerified home p t x) :
    t.spec.order = 0 ∨ ∃ q,
      Stage.previousOf t.spec.order (c.members home p.name) = some q ∧ c.HasVerified home p q x := by
  rcases h.changes h.coherent hs hstreams (Promotion.verifiedName p.name t.spec.name x) with
    hsame | ⟨hsupplies, y, hy, hfeeds, hname⟩
  · rw [HasVerified, Dict.contains, hsame] at hverified
    exact h.gate t ht x hx hverified
  obtain ⟨rfl, rfl⟩ := h.streams t ht s hs x hx y hy hname
  obtain ⟨-, rfl, -⟩ := h.coherent.mem_members.1 ht
  refine (Classical.em (t.spec.order = 0)).imp_right fun hfirst => ?_
  obtain ⟨q, hq, hfound⟩ := hsupplies.verified hfirst
  obtain ⟨input, hinput, hx⟩ := hfeeds
  obtain ⟨y, hy⟩ := hfound input hinput x hx
  exact ⟨q, hq, hasVerified_iff.2 (hy ▸ rfl)⟩

/-- The gate is kept by what a stage writes: streams of its own, a status of failure, and one of
success when its streams are there. -/
theorem after (now : Timestamp) (h : c.Gated home p xs) (hc' : c'.Coherent)
    (hs : s ∈ c.members home p.name) (hkept : Kept config s c c') (hstreams : c.PromotesOnly s c')
    (hstatuses : ∀ k t', c'.stages.get? k = some t' → ∃ t, c.stages.get? k = some t ∧
      (t'.status = t.status ∨ (∃ e, t'.status = some (.failed now e s.status)) ∨
        k = s.key ∧ ∀ input ∈ p.spec.inputStreams, ∃ x,
          c.codebaseAt ⟨home, input⟩ = some x ∧ c'.HasVerified home p s x)) :
    c'.Gated home p xs := by
  have hc := h.coherent
  have hstored := (hc.mem_members.1 hs).1
  have hsame := hkept.sameStages hstored
  have hinput {input : String} (hinput : input ∈ p.spec.inputStreams) :=
    h.codebaseAt_input hc hs hstreams hinput
  have hdistinguishes := h.toDistinguishes.after hc hc' hs hkept hstreams
  refine { hdistinguishes with coherent := hc', gate := ?_, success := ?_ }
  · intro t' ht' x hx hverified
    obtain ⟨t, ht, hidentity⟩ := hsame.symm.exists_member ht'
    rw [← hasVerified_congr hidentity] at hverified
    rw [← Stage.spec_of_identity hidentity]
    refine (h.gate_after hs hstreams ht hx hverified).imp_right ?_
    rintro ⟨q, hq, hbefore⟩
    obtain ⟨q', hq', hsame'⟩ := hsame.exists_previousOf hq
    exact ⟨q', hq', (hasVerified_congr hsame').2 (hstreams.hasVerified hbefore)⟩
  · intro t' ht' status hstatus hresult input hmem
    obtain ⟨t, ht, hcases⟩ := hstatuses t'.key t' (hc'.mem_members.1 ht').1
    obtain ⟨ht, hidentity⟩ := hsame.member_before hc ht' ht
    rw [hinput hmem]
    rcases hcases with hkeeps | ⟨e, hfailed⟩ | ⟨hkey, hnew⟩
    · obtain ⟨x, hx, hverified⟩ := h.success t ht status (hkeeps ▸ hstatus) hresult input hmem
      exact ⟨x, hx, (hasVerified_congr hidentity).1 (hstreams.hasVerified hverified)⟩
    · obtain rfl := Option.some.inj (hstatus.symm.trans hfailed)
      have hno : "error" ≠ "success" := by decide
      exact absurd hresult hno
    · obtain ⟨x, hx, hverified⟩ := hnew input hmem
      obtain rfl := hc.eq_of_key_eq ht hs ((Stage.key_of_identity hidentity).trans hkey)
      exact ⟨x, hx, (hasVerified_congr hidentity).1 hverified⟩

/-- Along the predecessors the orders fall, so whatever has passed the gate of a stage has passed
all the gates before. -/
theorem promoted (h : c.Gated home p xs) (hs : s ∈ c.members home p.name) (hx : x ∈ xs)
    (hverified : c.HasVerified home p s x) : Promoted home p x c s := by
  induction hn : rank (c.orders home p.name) s.spec.order using Nat.strong_induction_on
    generalizing s with
  | _ n ih =>
      subst hn
      rcases h.gate s hs x hx hverified with hfirst | ⟨q, hq, hbefore⟩
      · exact .first hfirst hverified
      · obtain ⟨hmem, hlower⟩ := Stage.previousOf_eq_some hq
        refine .after hq hverified (ih _ (rank_lt_rank ?_ hlower) hmem hbefore rfl)
        exact mem_orders.2 ⟨q, hmem, rfl⟩

end Gated

end Cluster

/-! ### Reconciles -/

/-- The gate is kept by a reconcile of any stage of the pipeline, however it ends. -/
theorem Stage.ensures_reconcile_gated (config : Config) (now : Timestamp)
    (h : c.Gated home p xs) (hs : s ∈ c.members home p.name) :
    (s.reconcile config now).Ensures F c fun _ c' => c'.Gated home p xs ∧
      ∀ k, k ∈ c'.memberKeys home p.name ↔ k ∈ c.memberKeys home p.name := by
  have hc := h.coherent
  have hlive := h.live s hs
  have hnames := h.namesPipeline hc hs
  obtain ⟨hstored, hhome, -⟩ := hc.mem_members.1 hs
  refine ((((ensures_reconcile config now hc hstored hlive hnames).and
    (ensures_reconcile_streams config now hc hstored hlive hnames)).and
    (ensures_reconcile_statuses config now hlive)).and
    ((ensures_reconcile_ok config now hc hstored hlive).and (hc.ensures _))).mono ?_
  rintro r c' ⟨⟨⟨heffect, hstreams⟩, hstatuses⟩, hok, hc'⟩
  refine ⟨h.after now hc' hs heffect.kept hstreams fun k t' ht' => ?_, fun k =>
    heffect.kept.mem_memberKeys hstored hc hc'⟩
  obtain ⟨t, ht, hcases⟩ := hstatuses k t' ht'
  refine ⟨t, ht, hcases.imp_right (Or.imp_right ?_)⟩
  rintro ⟨hkey, a, ha⟩
  refine ⟨hkey, fun input hinput => ?_⟩
  obtain ⟨plan, d, hpipeline, -, hplan, hsame, hpredecessor, hcontents⟩ := hok a ha
  obtain rfl : p = plan.pipeline := Except.ok.inj ((h.pipelineOf hc hs).symm.trans hpipeline)
  have hdelivered := delivered_of_aim hstored hplan hsame hpredecessor hcontents
  obtain ⟨x, v, hx, hv, -⟩ := hdelivered.streams input hinput
  rw [hhome] at hx hv
  exact ⟨x, hx, Option.isSome_iff_exists.2 ⟨v, hv⟩⟩

/-! ### Runs -/

namespace World

/-- **The promotion gate.** Start where no stage of the pipeline has a verified stream or a status,
and reconcile its stages in any order, with any failures in between. Then a stage has a verified
stream only if it is of order 0 or its predecessor has one for the same codebase, and so on down the
order; and a stage tells of success only if that is so for every input. -/
theorem promotion_is_gated {w : World} (hw : w.cluster.Reachable)
    (h : w.cluster.Distinguishes home p xs)
    (hnew : ∀ s ∈ w.cluster.members home p.name, s.status = none ∧
      ∀ x ∈ xs, ¬ w.cluster.HasVerified home p s x)
    {steps : List Step} (hsteps : ∀ step ∈ steps, ∃ key ∈ w.cluster.memberKeys home p.name,
      step.IsAttempt (fun _ => True) key) :
    let c := (w.run steps).cluster
    ∀ s ∈ c.members home p.name,
      (∀ x ∈ xs, c.HasVerified home p s x → Promoted home p x c s ∧
        (s.spec.order = 0 ∨ ∃ q, Stage.previousOf s.spec.order (c.members home p.name) = some q ∧
          c.HasVerified home p q x)) ∧
      ∀ status, s.status = some status → status.result = "success" →
        ∀ input ∈ p.spec.inputStreams, ∃ x, c.codebaseAt ⟨home, input⟩ = some x ∧
          Promoted home p x c s := by
  let I (c : Cluster) : Prop := c.Gated home p xs ∧
    ∀ k, k ∈ c.memberKeys home p.name ↔ k ∈ w.cluster.memberKeys home p.name
  have start : I w.cluster.calm := by
    refine ⟨⟨⟨h.pipeline, h.live, h.feeds, h.streams, h.inputs⟩, hw.coherent.calm,
      fun s hs x hx hverified => ?_, fun s hs status hstatus => ?_⟩, fun k => Iff.rfl⟩
    · exact absurd hverified ((hnew s hs).2 x hx)
    · rw [(hnew s hs).1] at hstatus
      cases hstatus
  have hfails : w.observed.FailsWith fun _ => True := ⟨fun _ _ => trivial, fun _ _ => trivial⟩
  obtain ⟨⟨hgated, -⟩, -⟩ :=
    attempts_among_keep (I := I) (fun _ => trivial) hfails
      (fun key hkey now c s ⟨hgated, hkeys⟩ hs => by
        obtain ⟨t, ht, rfl⟩ := List.mem_map.1 ((hkeys key).2 hkey)
        obtain rfl := Option.some.inj (hs.symm.trans (hgated.coherent.mem_members.1 ht).1)
        exact (Stage.ensures_reconcile_gated w.config now hgated ht).mono
          fun _ c' ⟨hgated', hkeys'⟩ => ⟨hgated', fun k => (hkeys' k).trans (hkeys k)⟩)
      start hsteps
  -- Failures that are still to come count for nothing here.
  have hend : (w.run steps).cluster.Gated home p xs :=
    ⟨⟨hgated.pipeline, hgated.live, hgated.feeds, hgated.streams, hgated.inputs⟩,
      (reachable_run_of hw steps).coherent, hgated.gate, hgated.success⟩
  intro c s hs
  refine ⟨fun x hx hverified => ⟨hend.promoted hs hx hverified, hend.gate s hs x hx hverified⟩, ?_⟩
  intro status hstatus hresult input hinput
  obtain ⟨x, hx, hverified⟩ := hend.success s hs status hstatus hresult input hinput
  exact ⟨x, hx, hend.promoted hs (hend.feeds x ⟨input, hinput, hx⟩) hverified⟩

open Sample in
/-- The second stage tells of success, after the first one has published and no more. -/
theorem promotion_is_gated_of_two_stages :
    let w := ({} : World).run twoStages
    let c := (w.run failingToPromote).cluster
    let p : Pipeline := Resource.stored pipeline "edp" (versionText 1)
    ∃ s ∈ c.members "edp" p.name, s.name = "qa" ∧ s.status.map (·.result) = some "success" ∧
      Promoted "edp" p "app" c s := by
  intro w c p
  obtain ⟨hpipeline, hmembers, hdistinct, hcodebases, hkeys⟩ :
      w.cluster.pipelines.get? ⟨"edp", p.name⟩ = some p ∧
        (∀ s ∈ w.cluster.members "edp" p.name, s.isBeingDeleted = false ∧ s.status = none ∧
          ¬ w.cluster.HasVerified "edp" p s "app" ∧
          Promotion.verifiedName p.name s.spec.name "app" ∉ p.spec.inputStreams) ∧
        (∀ s ∈ w.cluster.members "edp" p.name, ∀ t ∈ w.cluster.members "edp" p.name,
          Promotion.verifiedName p.name s.spec.name "app" =
            Promotion.verifiedName p.name t.spec.name "app" → s = t) ∧
        (∀ input ∈ p.spec.inputStreams, w.cluster.codebaseAt ⟨"edp", input⟩ = some "app") ∧
        w.cluster.memberKeys "edp" p.name = [key "dev", key "qa"] := by
    decide +kernel
  obtain ⟨s, hs, hname, hresult, hverified⟩ :
      ∃ s ∈ c.members "edp" p.name, s.name = "qa" ∧ s.status.map (·.result) = some "success" ∧
        c.HasVerified "edp" p s "app" := by
    decide +kernel
  have h : w.cluster.Distinguishes "edp" p {"app"} :=
    { pipeline := hpipeline
      live := fun s hs => (hmembers s hs).1
      feeds := fun x ⟨input, hinput, hx⟩ => Option.some.inj (hx.symm.trans (hcodebases input hinput))
      streams := by
        rintro s hs t ht _ rfl _ rfl hname
        exact ⟨hdistinct s hs t ht hname, rfl⟩
      inputs := by
        rintro s hs _ rfl
        exact (hmembers s hs).2.2.2 }
  have hnew : ∀ s ∈ w.cluster.members "edp" p.name, s.status = none ∧
      ∀ x ∈ ({"app"} : Set String), ¬ w.cluster.HasVerified "edp" p s x := by
    intro s hs
    refine ⟨(hmembers s hs).2.1, ?_⟩
    rintro _ rfl
    exact (hmembers s hs).2.2.1
  have hsteps : ∀ step ∈ failingToPromote, ∃ k ∈ w.cluster.memberKeys "edp" p.name,
      step.IsAttempt (fun _ => True) k := by
    rw [hkeys]
    simp [failingToPromote, failingToPublish, Step.IsAttempt, key]
  have hgate := (promotion_is_gated (reachable_run _) h hnew hsteps s hs).1 "app" rfl hverified
  exact ⟨s, hs, hname, hresult, hgate.1⟩

open Sample in
/-- Of three stages of a pipeline that is stored without a name, the last one is provisioned before
the one between is known to belong to it, and has passed that one then. -/
theorem promotion_passes_over_stage_without_name :
    let w := ({} : World).run threeStagesUnnamed
    let c := (w.run passingOver).cluster
    let p : Pipeline :=
      Resource.stored { pipeline with metadata := { generateName := some "mobile" } } "edp"
        (versionText 1)
    let start := w.cluster.members "edp" ""
    (∀ step ∈ passingOver, ∃ k ∈ start.map Stage.key, step.IsAttempt (fun _ => True) k) ∧
    (w.cluster.pipelines.get? ⟨"edp", ""⟩ = some p ∧
      (∀ input ∈ p.spec.inputStreams, w.cluster.codebaseAt ⟨"edp", input⟩ = some "app") ∧
      (∀ s ∈ start, w.cluster.pipelineOf s = .ok p ∧ s.isBeingDeleted = false ∧ s.status = none ∧
        ¬ w.cluster.HasVerified "edp" p s "app" ∧
        Promotion.verifiedName p.name s.spec.name "app" ∉ p.spec.inputStreams) ∧
      ∀ s ∈ start, ∀ t ∈ start, Promotion.verifiedName p.name s.spec.name "app" =
        Promotion.verifiedName p.name t.spec.name "app" → s = t) ∧
    (c.members "edp" p.name).map Stage.key = start.map Stage.key ∧
    ∃ s ∈ c.members "edp" p.name, s.spec.order ≠ 0 ∧
      s.status.map (·.result) = some "success" ∧ c.HasVerified "edp" p s "app" ∧
      ∃ q ∈ Stage.previousOf s.spec.order (c.members "edp" p.name),
        ¬ c.HasVerified "edp" p q "app" := by
  intro w c p start
  have hkeys : start.map Stage.key = [key "dev", key "prod", key "qa"] := by decide +kernel
  refine ⟨?_, by decide +kernel⟩
  rw [hkeys]
  simp [passingOver, Step.IsAttempt, key]

end World

end Conveyor
