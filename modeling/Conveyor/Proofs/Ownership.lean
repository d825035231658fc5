import Conveyor.Proofs.Delivery
import Conveyor.Proofs.Snapshots

/-!
The owners and labels of a stage over a reconcile. The list of owners is replaced as a whole, by one
that is made from the copy the reconcile goes by, and unlike the patch of finalizers this one does
not name the version of the copy. A stage that still lacks the finalizer is safe: the patch of the
finalizer comes first and stops a reconcile that goes by an old copy. Otherwise what others have
done to the list since the copy was read is undone.

The list is made only if the stage is not taken for the pipeline's already, for which kind and name
of one reference and the label are enough.
-/

namespace Conveyor

open Session Cluster

variable {config : Config} {s t t' : Stage} {F : Error → Prop} {c c' : Cluster} {now : Timestamp}

namespace Stage

/-- The owners of a stage that are no pipelines. -/
def otherOwners (s : Stage) : List OwnerReference := s.ownerReferences.filter (!isPipelineOwner ·)

/-- What the reconcile of a copy `s`, or a part of it with the result `r`, makes of the stored stage
`t`. Either owners and labels are kept, which is no success unless the copy names its pipeline
already. Or the pipeline is made the owner beside the others that the copy has, and the label goes
on. -/
inductive Adopts {α : Type} (s : Stage) (c : Cluster) (t : Stage) (r : Except Error α)
    (t' : Stage) : Prop where
  | kept (owners : t'.metadata.ownerReferences = t.metadata.ownerReferences)
      (labels : t'.metadata.labels = t.metadata.labels)
      (owned : ∀ a, r = .ok a → ∃ p, c.pipelineOf s = .ok p ∧ s.isOwnedBy p = true)
  | adopted (p : Pipeline) (others : List OwnerReference) (found : c.pipelineOf s = .ok p)
      (unowned : s.isOwnedBy p = false) (free : s.ownersWith p.ownerReference = .ok others)
      (owners : t'.metadata.ownerReferences = some others)
      (labels : t'.metadata.labels =
        some ((t.metadata.labels.getD ∅).insert pipelineLabelKey p.name))

/-- Parts before and after that see to neither owners nor labels. -/
theorem Adopts.around {α β : Type} {r : Except Error α} {r' : Except Error β} {t₁ t₂ : Stage}
    (h : Adopts s c' t₁ r t₂) (hpipelines : c'.pipelines = c.pipelines)
    (howners : t₁.metadata.ownerReferences = t.metadata.ownerReferences)
    (hlabels : t₁.metadata.labels = t.metadata.labels) (hafter : t'.metadata = t₂.metadata)
    (hr : ∀ b, r' = .ok b → ∃ a, r = .ok a) : Adopts s c t r' t' := by
  have hpipeline : c'.pipelineOf s = c.pipelineOf s := by
    rw [pipelineOf, pipelineOf, hpipelines]
  cases h with
  | kept owners labels owned =>
      refine .kept ?_ ?_ fun b hb => ?_
      · rw [hafter, owners, howners]
      · rw [hafter, labels, hlabels]
      · obtain ⟨a, ha⟩ := hr b hb
        rw [← hpipeline]
        exact owned a ha
  | adopted p others found unowned free owners labels =>
      refine .adopted p others (hpipeline ▸ found) unowned free ?_ ?_
      · rw [hafter, owners]
      · rw [hafter, labels, hlabels]

/-! ### The parts of a reconcile -/

/-- The finalizer step leaves owners and labels alone, and by a copy that is not of the stored
version it gets through only if it has nothing to do. -/
theorem ensures_ensureFinalizer_copy (h : c.Remembers s) (ht : c.stages.get? s.key = some t) :
    s.ensureFinalizer.Ensures F c fun r c' => ∃ t₁, c'.stages.get? s.key = some t₁ ∧
      t₁.metadata.ownerReferences = t.metadata.ownerReferences ∧
      t₁.metadata.labels = t.metadata.labels ∧
      ∀ b, r = .ok b → s.hasFinalizer = true ∨ t.metadata = s.metadata := by
  cases hfin : s.hasFinalizer with
  | true =>
      rw [ensureFinalizer_of_mem hfin]
      exact ⟨t, ht, rfl, rfl, fun _ _ => .inl rfl⟩
  | false =>
      rw [ensureFinalizer_of_not_mem hfin]
      refine (ensures_writeFinalizers h _).bind (fun u c' hpatch => ?_) fun e c' hpatch => ?_
      · cases hpatch with
        | written stored unchanged kept after =>
            obtain rfl := Option.some.inj (ht.symm.trans stored)
            have hnew := congrArg (Dict.get? · s.key) after
            simp only [Dict.get?_insert_self] at hnew
            exact ⟨_, hnew, rfl, rfl, fun _ _ => .inr unchanged⟩
        | removed _ _ last => exact absurd last (by simp)
      · have hsame : c'.stages = c.stages := by
          cases hpatch with
          | failed _ same | missing _ same | outdated _ _ same => exact same
        exact ⟨t, hsame ▸ ht, rfl, rfl, fun _ hb => absurd hb error_ne_ok⟩

theorem ensures_provisionOwned_copy (ht : c.stages.get? s.key = some t) :
    (s.provisionOwned config).Ensures F c fun r c' =>
      ∃ t', c'.stages.get? s.key = some t' ∧ s.Adopts c t r t' := by
  refine (ensures_ensureOwnership_copy ht).bind (fun u c₁ h => ?_) fun e c₁ h => ?_
  · refine ((asks_provision config s).ensures_stages (by decide)).mono fun r c' hstages => ?_
    rw [hstages]
    rcases h with ⟨-, e, he, -⟩ | ⟨-, p, hp, ⟨rfl, hyes⟩ | ⟨owners, hno, howner, rfl⟩⟩
    · exact absurd he.symm error_ne_ok
    · exact ⟨t, ht, .kept rfl rfl fun _ _ => ⟨p, hp, hyes⟩⟩
    · exact ⟨_, Dict.get?_insert_self .., .adopted p owners hp hno howner rfl rfl⟩
  · rcases h with ⟨rfl, -⟩ | ⟨hok, -⟩
    · exact ⟨t, ht, .kept rfl rfl fun _ ha => absurd ha error_ne_ok⟩
    · exact absurd hok error_ne_ok

/-- A report leaves all but the status alone, and it makes no success of a failure. -/
theorem ensures_report_copy (ht : c.stages.get? s.key = some t) (r : Except Error Unit) :
    (s.report now r).Ensures F c fun r' c' =>
      (∃ t', c'.stages.get? s.key = some t' ∧ t'.metadata = t.metadata) ∧
        ∀ b, r' = .ok b → ∃ a, r = .ok a := by
  have hwrite (status : StageStatus) (hdate : status.lastTimeUpdated = some now) :
      (s.writeStatus status).Ensures F c fun _ c' =>
        ∃ t', c'.stages.get? s.key = some t' ∧ t'.metadata = t.metadata := by
    refine (ensures_writeStatus_cases hdate).mono fun r c' h => ?_
    rcases h with ⟨e, -, rfl⟩ | ⟨t', -, ht', rfl⟩
    · exact ⟨t, ht, rfl⟩
    · obtain rfl := Option.some.inj (ht.symm.trans ht')
      exact ⟨_, Dict.get?_insert_self .., rfl⟩
  cases r with
  | ok u =>
      exact (hwrite (.provisioned now s.status) rfl).bind (fun _ c' h => ⟨h, fun _ _ => ⟨u, rfl⟩⟩)
        fun e c' h => ⟨h, fun _ hb => absurd hb error_ne_ok⟩
  | error e =>
      exact ensures_attempt_bind.2 ((hwrite (.failed now e s.status) rfl).mono fun _ c' h =>
        ⟨h, fun _ hb => absurd hb error_ne_ok⟩)

/-- The reconcile of a copy, whatever the stored stage has become and whatever fails. -/
theorem ensures_reconcile_copy (config : Config) (now : Timestamp)
    (hlive : s.isBeingDeleted = false) (h : c.Remembers s) (ht : c.stages.get? s.key = some t) :
    (s.reconcile config now).Ensures F c fun r c' =>
      ∃ t', c'.stages.get? s.key = some t' ∧ s.Adopts c t r t' ∧
        (t'.metadata.ownerReferences = t.metadata.ownerReferences ∨ s.hasFinalizer = true ∨
          t.metadata = s.metadata) := by
  rw [reconcile, if_neg (by rw [hlive]; decide)]
  refine ((ensures_ensureFinalizer_copy h ht).and (ensures_pipelines _)).bind ?_ ?_
  · rintro b c₁ ⟨⟨t₁, ht₁, howners, hlabels, hcurrent⟩, hpipelines⟩
    refine ensures_attempt_bind.2 ((ensures_provisionOwned_copy ht₁).mono ?_)
    rintro r c₂ ⟨t₂, ht₂, hadopts⟩
    refine (ensures_report_copy ht₂ r).mono ?_
    rintro r' c₃ ⟨⟨t₃, ht₃, hsame⟩, hok⟩
    exact ⟨t₃, ht₃, hadopts.around hpipelines howners hlabels hsame hok, .inr (hcurrent b rfl)⟩
  · rintro e c₁ ⟨⟨t₁, ht₁, howners, hlabels, -⟩, -⟩
    exact ⟨t₁, ht₁, .kept howners hlabels fun _ ha => absurd ha error_ne_ok, .inl howners⟩

/-! ### Owners of other kinds -/

theorem otherOwners_congr (h : t'.metadata.ownerReferences = t.metadata.ownerReferences) :
    t'.otherOwners = t.otherOwners := by
  simp only [otherOwners, ownerReferences, h]

/-- The pipeline's reference is none of the others. -/
theorem otherOwners_of_adopted {p : Pipeline} {owners : List OwnerReference}
    (h : s.ownersWith p.ownerReference = .ok owners)
    (howners : t.metadata.ownerReferences = some owners) : t.otherOwners = s.otherOwners := by
  obtain rfl := ownersWith_eq_ok h
  have hself : isPipelineOwner p.ownerReference = true := beq_self_eq_true _
  simp [otherOwners, ownerReferences, howners, hself]

end Stage

/-- **Which owners survive a reconcile.** A reconcile goes by a copy `s` of a live stage, read at
some time before. The owners of other kinds that are stored stay, unless the copy is out of date,
holds the finalizer and does not name its pipeline as owner; then they may be replaced by those of
the copy. -/
theorem other_owners_survive {c₀ : Cluster} (h₀ : c₀.Reachable) {key : ObjectKey}
    (hs : c₀.stages.get? key = some s) (hlive : s.isBeingDeleted = false) {o : ObservedCluster}
    (hlater : c₀.Leads o.cluster) (ht : o.cluster.stages.get? key = some t) (config : Config)
    (now : Timestamp) :
    let after := ((s.reconcile config now).run ObservedCluster.client o).2.cluster
    ∃ t', after.stages.get? key = some t' ∧ (t'.otherOwners = t.otherOwners ∨
      t'.otherOwners = s.otherOwners ∧ s.hasFinalizer = true ∧
        t.metadata.resourceVersion ≠ s.metadata.resourceVersion ∧
          ∃ p, o.cluster.pipelineOf s = .ok p ∧ s.isOwnedBy p = false) := by
  intro after
  obtain rfl : s.key = key := h₀.coherent.stages key s hs
  have hremembers := (hlater.remembers h₀ hs).calm
  have hfaults : o.FailsWith fun _ => True := ⟨fun _ _ => trivial, fun _ _ => trivial⟩
  obtain ⟨t', ht', hadopts, hcurrent⟩ := ObservedCluster.run_of_ensures hfaults
    (Stage.ensures_reconcile_copy config now hlive hremembers ht)
  refine ⟨t', ht', ?_⟩
  cases hadopts with
  | kept owners => exact .inl (Stage.otherOwners_congr owners)
  | adopted p others found unowned free owners =>
      have hothers := Stage.otherOwners_of_adopted free owners
      by_cases hversion : t.metadata.resourceVersion = s.metadata.resourceVersion
      · have hmeta := (hremembers.current t ht hversion).1
        exact .inl (hothers.trans
          (Stage.otherOwners_congr (congrArg (·.ownerReferences) hmeta.symm)))
      · rcases hcurrent with hsame | hfin | hmeta
        · exact .inl (Stage.otherOwners_congr hsame)
        · exact .inr ⟨hothers, hfin, hversion, p, found, unowned⟩
        · exact absurd (congrArg (·.resourceVersion) hmeta) hversion

open Sample in
/-- A stage gets another owner after it was read. By the copy, which lacks the finalizer, the
reconcile is refused, and the owner stays. -/
theorem added_owner_survives :
    let c := (({} : World).run (arranging ++ [.insertStage (stage "dev" 0)])).cluster
    let s : Stage := Resource.stored (stage "dev" 0) "edp" (versionText 4)
    let o : ObservedCluster :=
      ⟨(c.answer (.patchStageOwnership "edp" "dev" [team false] ∅)).2, [], [], []⟩
    let after := ((s.reconcile {} .epoch).run ObservedCluster.client o).2.cluster
    c.stages.get? (key "dev") = some s ∧
      ∃ t', after.stages.get? (key "dev") = some t' ∧ t'.otherOwners = [team false] := by
  intro c s o after
  have hs : c.stages.get? (key "dev") = some s := by decide +kernel
  have howners : (o.cluster.stages.get? (key "dev")).any
      (·.otherOwners == [team false]) = true := by decide +kernel
  obtain ⟨t, ht, howners⟩ := (Option.any_eq_true ..).1 howners
  obtain ⟨t', ht', hsame | ⟨-, hfin, -⟩⟩ := other_owners_survive (World.reachable_run _) hs
    (by decide) (.single (.answer c _)) ht {} .epoch
  · exact ⟨hs, t', ht', hsame.trans (eq_of_beq howners)⟩
  · exact absurd hfin (by decide)

open Sample in
/-- The same with a stage that has the finalizer: the reconcile puts in place the owners of the
copy, and the one that came in between is lost. -/
theorem added_owner_is_lost :
    let held : Stage := { stage "dev" 0 with metadata.finalizers := some [Stage.finalizer] }
    let c := (({} : World).run (arranging ++ [.insertStage held])).cluster
    let s : Stage := Resource.stored held "edp" (versionText 4)
    let o : ObservedCluster :=
      ⟨(c.answer (.patchStageOwnership "edp" "dev" [team false] ∅)).2, [], [], []⟩
    let after := ((s.reconcile {} .epoch).run ObservedCluster.client o).2.cluster
    c.Reachable ∧ c.stages.get? (key "dev") = some s ∧ s.isBeingDeleted = false ∧
      c.Leads o.cluster ∧ Stage.isPipelineOwner (team false) = false ∧
      (∃ t, o.cluster.stages.get? (key "dev") = some t ∧ team false ∈ t.ownerReferences) ∧
      ∃ t', after.stages.get? (key "dev") = some t' ∧ team false ∉ t'.ownerReferences := by
  intro held c s o after
  obtain ⟨hthere, hlost⟩ : (o.cluster.stages.get? (key "dev")).any
        (fun t => decide (team false ∈ t.ownerReferences)) = true ∧
      (after.stages.get? (key "dev")).any
        (fun t => decide (team false ∉ t.ownerReferences)) = true := by
    decide +kernel
  refine ⟨World.reachable_run _, by decide +kernel, by decide, .single (.answer c _), by decide,
    ?_, ?_⟩
  · obtain ⟨t, ht, hmem⟩ := (Option.any_eq_true ..).1 hthere
    exact ⟨t, ht, of_decide_eq_true hmem⟩
  · obtain ⟨t', ht', hmem⟩ := (Option.any_eq_true ..).1 hlost
    exact ⟨t', ht', of_decide_eq_true hmem⟩

/-! ### The pipeline as owner -/

namespace Stage

/-- The stage belongs to the pipeline alone: no owner of its kind is another one or an earlier one,
none of another kind is the controller, and the label names it. -/
structure BelongsTo (p : Pipeline) (s : Stage) : Prop where
  pipelines : s.ownerReferences.filter isPipelineOwner = [p.ownerReference]
  controllers : s.ownerReferences.filter OwnerReference.isController = [p.ownerReference]
  label : s.pipelineLabel = some p.name

theorem belongsTo_congr (howners : t.metadata.ownerReferences = s.metadata.ownerReferences)
    (hlabels : t.metadata.labels = s.metadata.labels) (p : Pipeline) :
    t.BelongsTo p ↔ s.BelongsTo p := by
  have howners : t.ownerReferences = s.ownerReferences := by simp only [ownerReferences, howners]
  have hlabel : t.pipelineLabel = s.pipelineLabel := by simp only [pipelineLabel, hlabels]
  constructor
  · rintro ⟨hpipelines, hcontrollers, hl⟩
    exact ⟨howners ▸ hpipelines, howners ▸ hcontrollers, hlabel ▸ hl⟩
  · rintro ⟨hpipelines, hcontrollers, hl⟩
    exact ⟨howners ▸ hpipelines, howners ▸ hcontrollers, hlabel ▸ hl⟩

/-- The pipeline's reference goes in where no other owner is the controller. -/
theorem controllers_of_ownersWith {o : OwnerReference} {owners : List OwnerReference}
    (h : s.ownersWith o = .ok owners) : ∀ other ∈ s.otherOwners, other.isController = false := by
  unfold ownersWith at h
  dsimp only at h
  split at h
  · cases h
  · next hnone =>
    intro other hmem
    exact Bool.eq_false_iff.2 (List.find?_eq_none.1 hnone other hmem)

/-- Where the pipeline is made the owner, the stage belongs to it. -/
theorem belongsTo_of_adopted {p : Pipeline} {others : List OwnerReference}
    (h : s.ownersWith p.ownerReference = .ok others)
    (howners : t'.metadata.ownerReferences = some others)
    (hlabels : t'.metadata.labels =
      some ((t.metadata.labels.getD ∅).insert pipelineLabelKey p.name)) : t'.BelongsTo p := by
  have hfree := controllers_of_ownersWith h
  obtain rfl := ownersWith_eq_ok h
  have howners : t'.ownerReferences = s.otherOwners ++ [p.ownerReference] := by
    rw [ownerReferences, howners]
    rfl
  have hkinds : ∀ o ∈ s.otherOwners, ¬ isPipelineOwner o = true := fun o ho => by
    simpa using (List.mem_filter.1 ho).2
  have hkind : isPipelineOwner p.ownerReference = true := beq_self_eq_true _
  have hcontrols : p.ownerReference.isController = true := rfl
  refine ⟨?_, ?_, ?_⟩
  · rw [howners, List.filter_append, List.filter_eq_nil_iff.2 hkinds]
    simp [hkind]
  · have hnone := List.filter_eq_nil_iff.2 fun o ho => Bool.eq_false_iff.1 (hfree o ho)
    rw [howners, List.filter_append, hnone]
    simp [hcontrols]
  · rw [pipelineLabel, hlabels]
    exact Dict.get?_insert_self ..

end Stage

namespace World

/-- **Owners and labels after a reconcile** of a stored live stage, whatever fails in it. Success
leaves the owners of other kinds in their order, labels the stage with its pipeline, and touches no
other label; the stage belongs to the pipeline then, unless it was taken for the pipeline's before
and did not belong to it already. Another controller keeps all as it was, and it is an error unless
the stage was taken for the pipeline's. -/
theorem ownership_after_reconcile {w : World} (hw : w.cluster.Reachable) (now : Timestamp)
    {key : ObjectKey} (hs : w.cluster.stages.get? key = some s) (hlive : s.isBeingDeleted = false) :
    ∃ r t, w.answer now key = some r ∧
      (w.apply (.reconcile now key)).cluster.stages.get? key = some t ∧
      (∀ a, r = .ok a → ∃ p, w.cluster.pipelineOf s = .ok p ∧ t.otherOwners = s.otherOwners ∧
        t.pipelineLabel = some p.name ∧
        (∀ l, l ≠ Stage.pipelineLabelKey →
          (t.metadata.labels.getD ∅).get? l = (s.metadata.labels.getD ∅).get? l) ∧
        (t.BelongsTo p ↔ (s.isOwnedBy p = true → s.BelongsTo p))) ∧
      ∀ other ∈ s.otherOwners, other.isController = true →
        t.metadata.ownerReferences = s.metadata.ownerReferences ∧
        t.metadata.labels = s.metadata.labels ∧
        ∀ a, r = .ok a → ∃ p, w.cluster.pipelineOf s = .ok p ∧ s.isOwnedBy p = true := by
  obtain rfl : s.key = key := hw.coherent.stages key s hs
  have hremembers := (Leads.remembers .refl hw hs).calm
  have hfaults : w.observed.FailsWith fun _ => True := ⟨fun _ _ => trivial, fun _ _ => trivial⟩
  obtain ⟨r, hr, t, ht, hadopts, -⟩ := ObservedCluster.reconcile_of_ensures hfaults hs
    (Stage.ensures_reconcile_copy w.config now hlive hremembers hs)
  refine ⟨r, t, hr, ht, ?_⟩
  cases hadopts with
  | kept owners labels owned =>
      refine ⟨fun a ha => ?_, fun other hmem hcontroller => ⟨owners, labels, fun a ha => owned a ha⟩⟩
      obtain ⟨p, hp, hyes⟩ := owned a ha
      have hlabel : s.pipelineLabel = some p.name := by
        rw [Stage.isOwnedBy, Bool.and_eq_true] at hyes
        exact eq_of_beq hyes.2
      refine ⟨p, hp, Stage.otherOwners_congr owners, ?_, fun l _ => by rw [labels], ?_⟩
      · rw [← hlabel, Stage.pipelineLabel, Stage.pipelineLabel, labels]
      · rw [Stage.belongsTo_congr owners labels]
        exact ⟨fun h _ => h, fun h => h hyes⟩
  | adopted p others found unowned free owners labels =>
      constructor
      · intro a ha
        have hbelongs := Stage.belongsTo_of_adopted free owners labels
        refine ⟨p, found, Stage.otherOwners_of_adopted free owners, hbelongs.label, fun l hl => ?_,
          fun _ hyes => ?_, fun _ => hbelongs⟩
        · rw [labels]
          exact Dict.get?_insert_of_ne _ _ hl
        · rw [unowned] at hyes
          cases hyes
      · intro other hmem hcontroller
        rw [Stage.controllers_of_ownersWith free other hmem] at hcontroller
        cases hcontroller

open Sample in
/-- A stage has an earlier reference to its pipeline, another owner and a label of its own. The
reference is replaced, and the rest is kept. -/
theorem ownership_after_reconcile_of_stale_owner :
    let stale : OwnerReference := { pipeline.ownerReference with uid := "old" }
    let w := ({} : World).run (arranging ++ [.insertStage
      { stage "dev" 0 with
        metadata.ownerReferences := some [stale, team false]
        metadata.labels := some (.singleton "tier" "web") }])
    w.answer .epoch (key "dev") = some (.ok .awaitChange) ∧
      ∃ t p, (w.apply (.reconcile .epoch (key "dev"))).cluster.stages.get? (key "dev") = some t ∧
        w.cluster.pipelines.get? (key "mobile") = some p ∧ t.BelongsTo p ∧
        t.otherOwners = [team false] ∧ (t.metadata.labels.getD ∅).get? "tier" = some "web" := by
  intro stale w
  obtain ⟨hs, hok⟩ : (w.cluster.stages.get? (key "dev")).any (fun s =>
        !s.isBeingDeleted && s.pipelineName == "mobile" && s.namespaceName == "edp" &&
          s.otherOwners == [team false] && s.pipelineLabel.isNone &&
            (s.metadata.labels.getD ∅).get? "tier" == some "web") = true ∧
      w.answer .epoch (key "dev") = some (.ok .awaitChange) := by
    decide +kernel
  obtain ⟨s, hs, hsample⟩ := (Option.any_eq_true ..).1 hs
  simp only [Bool.and_eq_true, Bool.not_eq_true', beq_iff_eq, Option.isNone_iff_eq_none] at hsample
  obtain ⟨⟨⟨⟨⟨hlive, hname⟩, hhome⟩, hothers⟩, hlabel⟩, htier⟩ := hsample
  obtain ⟨r, t, hr, ht, hafter, -⟩ :=
    ownership_after_reconcile (World.reachable_run _) .epoch hs hlive
  obtain rfl : r = .ok .awaitChange := Option.some.inj (hr.symm.trans hok)
  obtain ⟨p, hp, hsame, -, hlabels, hbelongs⟩ := hafter _ rfl
  refine ⟨hok, t, p, ht, ?_, hbelongs.2 fun hyes => ?_, hsame.trans hothers,
    (hlabels _ (by decide)).trans htier⟩
  · have hfound := found_eq_ok.1 hp
    rwa [hname, hhome] at hfound
  · rw [Stage.isOwnedBy, hlabel, Bool.and_eq_true] at hyes
    exact absurd hyes.2 Bool.false_ne_true

open Sample in
/-- A stage that is taken for the pipeline's is not looked at closely. A pipeline that was made
again does not get its reference renewed, and another controller goes unnoticed. -/
theorem stale_owner_and_other_controller_pass :
    let replaced := ({} : World).run (arranging ++
      [.insertPipeline "edp" { pipeline with metadata.uid := some "old" },
        .insertStage (stage "dev" 0), .reconcile .epoch (key "dev"),
        .insertPipeline "edp" { pipeline with metadata.uid := some "new" }])
    let shared := ({} : World).run (arranging ++ [.insertStage
      { stage "dev" 0 with
        metadata.ownerReferences := some [pipeline.ownerReference, team true]
        metadata.labels := some (.singleton Stage.pipelineLabelKey "mobile") }])
    (∃ s p t, replaced.cluster.stages.get? (key "dev") = some s ∧ s.isBeingDeleted = false ∧
      replaced.cluster.pipelineOf s = .ok p ∧
      replaced.answer .epoch (key "dev") = some (.ok .awaitChange) ∧
      (replaced.apply (.reconcile .epoch (key "dev"))).cluster.stages.get? (key "dev") = some t ∧
      p.ownerReference ∉ t.ownerReferences) ∧
    ∃ s, shared.cluster.stages.get? (key "dev") = some s ∧ s.isBeingDeleted = false ∧
      team true ∈ s.otherOwners ∧ (team true).isController = true ∧
      shared.answer .epoch (key "dev") = some (.ok .awaitChange) := by
  intro replaced shared
  obtain ⟨hreplaced, hstale, hok, hshared, hpasses⟩ :
      (replaced.cluster.stages.get? (key "dev")).any (fun s =>
        !s.isBeingDeleted && s.pipelineName == "mobile" && s.namespaceName == "edp") = true ∧
      (replaced.cluster.pipelines.get? (key "mobile")).any (fun p =>
        ((replaced.apply (.reconcile .epoch (key "dev"))).cluster.stages.get? (key "dev")).any
          fun t => decide (p.ownerReference ∉ t.ownerReferences)) = true ∧
      replaced.answer .epoch (key "dev") = some (.ok .awaitChange) ∧
      (shared.cluster.stages.get? (key "dev")).any (fun s =>
        !s.isBeingDeleted && decide (team true ∈ s.otherOwners)) = true ∧
      shared.answer .epoch (key "dev") = some (.ok .awaitChange) := by
    decide +kernel
  -- All that was to be computed has been.
  clear_value replaced shared
  constructor
  · obtain ⟨s, hs, hsample⟩ := (Option.any_eq_true ..).1 hreplaced
    obtain ⟨p, hp, hafter⟩ := (Option.any_eq_true ..).1 hstale
    obtain ⟨t, ht, hmem⟩ := (Option.any_eq_true ..).1 hafter
    simp only [Bool.and_eq_true, Bool.not_eq_true', beq_iff_eq] at hsample
    obtain ⟨⟨hlive, hname⟩, hhome⟩ := hsample
    refine ⟨s, p, t, hs, hlive, found_eq_ok.2 ?_, hok, ht, of_decide_eq_true hmem⟩
    rwa [hname, hhome]
  · obtain ⟨s, hs, hsample⟩ := (Option.any_eq_true ..).1 hshared
    simp only [Bool.and_eq_true, Bool.not_eq_true'] at hsample
    exact ⟨s, hs, hsample.1, of_decide_eq_true hsample.2, rfl, hpasses⟩

end World

end Conveyor
