import Conveyor.Proofs.Scenario
import Conveyor.Proofs.Streams

/-!
Who may take a namespace away. A reconcile asks for the removal of no other namespace or project
than the target of its stage, and it does so only when the deletion of the stage has been asked for.
So the target of a stage is safe from all stages that have another target, and from those of its own
namespace in particular. It is not safe from a stage of another namespace whose target has the same
name: the name of a target is made of two names with a dash between them, and that can be read in
two ways.
-/

namespace Conveyor

open Session

/-- The namespace or project that a request removes. -/
def Request.removes : Request → Option String
  | deleteNamespace name | deleteProject name => some name
  | _ => none

theorem Request.removes_of_part_ne {r : Request} (h : r.part ≠ some .removals) :
    r.removes = none := by
  cases r <;> first | rfl | exact absurd rfl h

namespace Dict

variable {κ α : Type} [KeyOrder κ] [DecidableEq κ]

theorem contains_insert_of_contains (d : Dict κ α) (k : κ) (a : α) {l : κ}
    (h : d.contains l = true) : (d.insert k a).contains l = true := by
  rw [contains_insert, h, Bool.or_true]

theorem contains_erase_of_ne (d : Dict κ α) {k l : κ} (h : l ≠ k) :
    (d.erase k).contains l = d.contains l := by
  rw [contains_erase, decide_eq_false h.symm, Bool.not_false, Bool.true_and]

end Dict

namespace Cluster

variable {name : String} {c c' c'' : Cluster}

/-- What is there under a name stays, in each form in which it is there. -/
structure KeepsPlace (name : String) (c c' : Cluster) : Prop where
  namespaces : c.namespaces.contains name = true → c'.namespaces.contains name = true
  spaces : c.spaces.contains name = true → c'.spaces.contains name = true
  projects : c.projects.contains name = true → c'.projects.contains name = true

theorem KeepsPlace.of_places (h : c'.places = c.places) (name : String) :
    c.KeepsPlace name c' where
  namespaces hthere := (congrArg (fun x : Places => x.namespaces.contains name) h).trans hthere
  spaces hthere := (congrArg (fun x : Places => x.spaces.contains name) h).trans hthere
  projects hthere := (congrArg (fun x : Places => x.projects.contains name) h).trans hthere

theorem KeepsPlace.trans (h : c.KeepsPlace name c') (k : c'.KeepsPlace name c'') :
    c.KeepsPlace name c'' :=
  ⟨k.namespaces ∘ h.namespaces, k.spaces ∘ h.spaces, k.projects ∘ h.projects⟩

/-- A request for the removal of another name leaves what is there. -/
theorem keepsPlace_serve {r : Request} (h : r.removes ≠ some name) (c : Cluster) :
    c.KeepsPlace name (c.serve r).2 := by
  cases r with
  | createNamespace =>
      simp only [serve, createNamespace]
      split
      · exact ⟨id, id, id⟩
      · exact ⟨Dict.contains_insert_of_contains _ _ _, id, id⟩
  | createSpace =>
      simp only [serve, createSpace]
      split
      · exact ⟨id, id, id⟩
      · exact ⟨Dict.contains_insert_of_contains _ _ _, Dict.contains_insert_of_contains _ _ _, id⟩
  | createProject =>
      simp only [serve, createProject]
      split
      · exact ⟨id, id, id⟩
      · exact ⟨Dict.contains_insert_of_contains _ _ _, id, Dict.contains_insert_of_contains _ _ _⟩
  | deleteNamespace other =>
      have hne : name ≠ other := fun hname => h (congrArg some hname.symm)
      simp only [serve, deleteNamespace]
      split
      · exact ⟨(Dict.contains_erase_of_ne _ hne).trans, id, id⟩
      · exact ⟨id, id, id⟩
  | deleteProject other =>
      have hne : name ≠ other := fun hname => h (congrArg some hname.symm)
      simp only [serve, deleteProject]
      split
      · exact ⟨(Dict.contains_erase_of_ne _ hne).trans, id, (Dict.contains_erase_of_ne _ hne).trans⟩
      · exact ⟨id, id, id⟩
  | _ =>
      refine .of_places (places_serve ?_ ?_ c) name
      all_goals
        intro hpart
        cases hpart

end Cluster

/-! ### What a reconcile removes -/

/-- What a reconcile of the stage may remove. -/
def Stage.MayRemove (config : Config) (s : Stage) (name : String) : Prop :=
  s.isBeingDeleted = true ∧ config.managesNamespaces = true ∧ s.targetNamespace = name

/-- What the removal of a target asks for, on each platform. -/
theorem Target.asks_removal_of {P : Request → Prop} {config : Config} {s : Stage}
    (kubernetes : config.managesNamespaces = true → config.isKubernetes = true →
      P (.deleteNamespace s.targetNamespace))
    (openshift : config.managesNamespaces = true → config.isKubernetes = false →
      P (.deleteProject s.targetNamespace)) : (removal config s).Asks P := by
  refine asks_ite (fun hmanages => ?_) fun _ => asks_pure
  refine asks_ite (fun h => asks_tolerate (asks_request (kubernetes hmanages h))) fun h => ?_
  exact asks_tolerate (asks_request (openshift hmanages (Bool.eq_false_iff.2 h)))

theorem Target.asks_removal (config : Config) (s : Stage) :
    (removal config s).Asks fun r => ∀ name ∈ r.removes,
      config.managesNamespaces = true ∧ s.targetNamespace = name :=
  asks_removal_of (fun hmanages _ _ h => ⟨hmanages, Option.some.inj h⟩)
    fun hmanages _ _ h => ⟨hmanages, Option.some.inj h⟩

namespace Stage

theorem asks_releaseFinalizer (s : Stage) : s.releaseFinalizer.Asks (Request.Within [.stages]) := by
  unfold releaseFinalizer
  split
  · trivial
  · exact asks_request List.mem_cons_self

section

variable {P : Request → Prop} {config : Config} {now : Timestamp} {s : Stage}

/-- The requests of a reconcile of a live stage, part by part. -/
theorem asks_reconcile_live (hlive : s.isBeingDeleted = false)
    (finalizer : s.ensureFinalizer.Asks P) (ownership : s.ensureOwnership.Asks P)
    (placing : (Target.placing config s).Asks P) (access : (Access.configure config s).Asks P)
    (promote : (Promotion.promote s).Asks P) (put : (ReleaseJob.put s).Asks P)
    (report : ∀ r, (s.report now r).Asks P) : (s.reconcile config now).Asks P := by
  simp only [reconcile, hlive, Bool.false_eq_true, if_false]
  refine finalizer.bind fun _ => Asks.bind (Asks.attempt (ownership.bind fun _ => ?_)) report
  rw [Target.provision_eq]
  exact placing.bind fun _ => access.bind fun _ => promote.bind fun _ => put

/-- The requests of a reconcile of a stage under deletion, part by part. -/
theorem asks_reconcile_deleted (hdeleted : s.isBeingDeleted = true)
    (siblings : (s.siblings s.pipelineName).Asks P)
    (labels : (Retirement.deleteEnvironmentLabels s).Asks P)
    (removal : (Target.removal config s).Asks P) (release : s.releaseFinalizer.Asks P) :
    (s.reconcile config now).Asks P := by
  simp only [reconcile, hdeleted, if_true]
  refine Asks.bind (Asks.attempt ?_) fun outcome => ?_
  · refine siblings.bind fun _ => asks_ite (fun _ => ?_) fun _ => asks_pure
    rw [Target.deprovision_eq]
    exact (labels.bind fun _ => removal).bind fun _ => release.bind fun _ => asks_pure
  · rcases outcome with e | state
    · trivial
    · cases state <;> trivial

end

/-- The requests of a reconcile, told apart by what they do to places. Those that do nothing to them
are all of one kind here; the others make the target of a live stage or remove that of a deleted
one. -/
theorem asks_reconcile {P : Request → Prop} (config : Config) (now : Timestamp) (s : Stage)
    (plain : ∀ r, r.part ≠ some .places → r.part ≠ some .removals → P r)
    (placing : s.isBeingDeleted = false → (Target.placing config s).Asks P)
    (removal : s.isBeingDeleted = true → (Target.removal config s).Asks P) :
    (s.reconcile config now).Asks P := by
  have hplain {α : Type} {p : Session α} {ps : List Part} (h : p.Asks (Request.Within ps))
      (hplaces : .places ∉ ps) (hremovals : .removals ∉ ps) : p.Asks P :=
    h.mono fun r hr => plain r (hr.part_ne hplaces) (hr.part_ne hremovals)
  cases hdeleted : s.isBeingDeleted with
  | false =>
      exact asks_reconcile_live hdeleted
        (hplain (s.asks_ensureFinalizer.mono fun _ hr => hr.1) (by decide) (by decide))
        (hplain (s.asks_ensureOwnership.mono fun _ hr => hr.1) (by decide) (by decide))
        (placing hdeleted)
        (hplain (Access.asks_configure config s) (by decide) (by decide))
        (hplain (Promotion.asks_promote s) (by decide) (by decide))
        (hplain (ReleaseJob.asks_put s) (by decide) (by decide))
        fun r => hplain ((s.asks_report now r).mono fun _ hr => hr.1) (by decide) (by decide)
  | true =>
      exact asks_reconcile_deleted hdeleted
        (hplain ((s.reads_siblings _).asksWithin []) (by decide) (by decide))
        (hplain (Retirement.asks_deleteEnvironmentLabels s) (by decide) (by decide))
        (removal hdeleted)
        (hplain s.asks_releaseFinalizer (by decide) (by decide))

/-- **A reconcile removes the target of its stage or nothing**, and without a deletion nothing. -/
theorem asks_reconcile_removes (config : Config) (now : Timestamp) (s : Stage) :
    (s.reconcile config now).Asks fun r => ∀ name ∈ r.removes, s.MayRemove config name := by
  refine asks_reconcile config now s (fun r _ hremovals name hname => ?_) (fun _ => ?_)
    fun hdeleted => ?_
  · rw [Request.removes_of_part_ne hremovals] at hname
    cases hname
  · refine (Target.asks_placing config s).mono fun r hr name hname => ?_
    rw [Request.removes_of_part_ne (hr.part_ne (by decide))] at hname
    cases hname
  · exact (Target.asks_removal config s).mono fun r hr name hname => ⟨hdeleted, hr name hname⟩

end Stage

namespace ObservedCluster

/-- Whatever fails, a reconcile leaves all places but the target of a deleted stage. -/
theorem keepsPlace_reconcile (config : Config) (now : Timestamp) {key : ObjectKey} {name : String}
    {o : ObservedCluster}
    (h : ∀ s, o.cluster.stages.get? key = some s → ¬ s.MayRemove config name) :
    o.cluster.KeepsPlace name (o.reconcile config now key).2.cluster := by
  cases hs : o.cluster.stages.get? key with
  | none =>
      rw [reconcile_of_absent hs]
      exact ⟨id, id, id⟩
  | some s =>
      have hfaults : o.FailsWith fun _ => True := ⟨fun _ _ => trivial, fun _ _ => trivial⟩
      have hkeeps : (s.reconcile config now).Ensures (fun _ => True) o.cluster.calm fun _ c' =>
          o.cluster.KeepsPlace name c' := by
        refine (s.asks_reconcile_removes config now).ensures (fun r c hr hc => ?_)
          (⟨id, id, id⟩)
        exact hc.trans (Cluster.keepsPlace_serve (fun hname => h s hs (hr name hname)) c)
      obtain ⟨-, -, hafter⟩ := reconcile_of_ensures hfaults hs hkeeps
      exact ⟨hafter.namespaces, hafter.spaces, hafter.projects⟩

end ObservedCluster

/-- Stages of one namespace have targets of their own. -/
theorem Stage.targetNamespace_ne {a b : Stage} (hhome : a.namespaceName = b.namespaceName)
    (hkey : a.key ≠ b.key) : a.targetNamespace ≠ b.targetNamespace := by
  intro h
  rw [targetNamespace, targetNamespace, hhome] at h
  refine hkey ?_
  rw [key, key, hhome, (String.append_right_inj _).1 h]

namespace World

/-- No step but a reconcile takes a place away. -/
theorem keepsPlace_apply {w : World} {step : Step} {name : String}
    (h : ∀ now key s, step = .reconcile now key → w.cluster.stages.get? key = some s →
      ¬ s.MayRemove w.config name) : w.cluster.KeepsPlace name (w.apply step).cluster := by
  cases step with
  | insertNamespace other => exact ⟨Dict.contains_insert_of_contains _ _ _, id, id⟩
  | markDeleting now key =>
      simp only [apply]
      split <;> exact ⟨id, id, id⟩
  | failNext o =>
      simp only [apply, arrange, ObservedCluster.arrange, cluster, Cluster.failNext]
      split <;> exact ⟨id, id, id⟩
  | reconcile now key =>
      exact ObservedCluster.keepsPlace_reconcile w.config now fun s hs => h now key s rfl hs
  | _ => exact ⟨id, id, id⟩

/-- What disappears in the course of any steps was taken away by a reconcile. -/
theorem exists_removal {w : World} {steps : List Step} {name : String}
    (hlost : ¬ w.cluster.KeepsPlace name (w.run steps).cluster) :
    ∃ before now key after s, steps = before ++ .reconcile now key :: after ∧
      (w.run before).cluster.stages.get? key = some s ∧
      s.MayRemove (w.run before).config name := by
  induction steps generalizing w with
  | nil => exact absurd (⟨id, id, id⟩) hlost
  | cons step steps ih =>
      by_cases hremove : ∃ now key s, step = .reconcile now key ∧
          w.cluster.stages.get? key = some s ∧ s.MayRemove w.config name
      · obtain ⟨now, key, s, rfl, hs, hremove⟩ := hremove
        exact ⟨[], now, key, steps, s, rfl, hs, hremove⟩
      · have hfirst : w.cluster.KeepsPlace name (w.apply step).cluster :=
          keepsPlace_apply fun now key s hstep hs hmay => hremove ⟨now, key, s, hstep, hs, hmay⟩
        obtain ⟨before, now, key, after, s, rfl, hs, hmay⟩ :=
          ih (w := w.apply step) fun hrest => hlost (hfirst.trans hrest)
        exact ⟨step :: before, now, key, after, s, rfl, hs, hmay⟩

/-- **Targets are taken away by their own stages only.** Whatever fails in it, a reconcile of one
stage leaves the target of another, unless the two belong to different namespaces and have one
target all the same. And when in the course of any steps something under a name disappears, one of
the steps was the reconcile of a deleted stage with that target. -/
theorem targets_stay {w : World} (hw : w.cluster.Reachable) :
    (∀ now k l a b, w.cluster.stages.get? k = some a → w.cluster.stages.get? l = some b → l ≠ k →
      a.namespaceName = b.namespaceName ∨ a.targetNamespace ≠ b.targetNamespace →
      w.cluster.KeepsPlace b.targetNamespace (w.apply (.reconcile now k)).cluster) ∧
    ∀ steps name, ¬ w.cluster.KeepsPlace name (w.run steps).cluster →
      ∃ before now key after s, steps = before ++ .reconcile now key :: after ∧
        (w.run before).cluster.stages.get? key = some s ∧
        s.MayRemove (w.run before).config name := by
  refine ⟨fun now k l a b ha hb hother hapart => ?_, fun steps name hlost => exists_removal hlost⟩
  refine ObservedCluster.keepsPlace_reconcile w.config now fun s hs hremove => ?_
  obtain rfl : a = s := Option.some.inj (ha.symm.trans hs)
  have hkey : a.key ≠ b.key := by
    rw [hw.coherent.stages k a ha, hw.coherent.stages l b hb]
    exact Ne.symm hother
  exact hapart.elim (fun hhome => Stage.targetNamespace_ne hhome hkey) id hremove.2.2

open Sample in
/-- Of two stages the later one goes with its project, and the project of the other stays. -/
theorem targets_stay_of_two_stages :
    let w := ({} : World).run twoStagesLeaving
    let after := w.run [.reconcile .epoch (key "qa")]
    after.cluster.projects.contains "edp-dev" = true ∧
      after.cluster.projects.contains "edp-qa" = false ∧
      ∃ before now key rest s, [Step.reconcile .epoch (Sample.key "qa")] =
        before ++ .reconcile now key :: rest ∧ (w.run before).cluster.stages.get? key = some s ∧
          s.MayRemove (w.run before).config "edp-qa" := by
  intro w after
  obtain ⟨hqa, hdev, hdevThere, hqaThere, hgone⟩ :
      (w.cluster.stages.get? (key "qa")).any (·.namespaceName == "edp") = true ∧
        (w.cluster.stages.get? (key "dev")).any
          (fun s => s.targetNamespace == "edp-dev" && s.namespaceName == "edp") = true ∧
        w.cluster.projects.contains "edp-dev" = true ∧
        w.cluster.projects.contains "edp-qa" = true ∧
        after.cluster.projects.contains "edp-qa" = false := by
    decide +kernel
  obtain ⟨qa, hqa, hhome⟩ := (Option.any_eq_true ..).1 hqa
  obtain ⟨dev, hdev, htarget⟩ := (Option.any_eq_true ..).1 hdev
  simp only [Bool.and_eq_true, beq_iff_eq] at htarget hhome
  obtain ⟨htarget, hdevHome⟩ := htarget
  obtain ⟨hstay, hsteps⟩ := targets_stay (w := w) (reachable_run _)
  refine ⟨?_, hgone, hsteps _ _ fun hkeeps => ?_⟩
  · have hkeeps := hstay .epoch (key "qa") (key "dev") qa dev hqa hdev (by decide)
      (.inl (hhome.trans hdevHome.symm))
    rw [htarget] at hkeeps
    exact hkeeps.projects hdevThere
  · have hkept := hkeeps.projects hqaThere
    rw [hgone] at hkept
    cases hkept

open Sample in
/-- The target of a stage goes with the deletion of a stage of another namespace, when the names of
the two targets are one. -/
theorem target_goes_with_stage_of_other_namespace :
    let w := ({} : World).run crossedTargetsLeaving
    let after := w.apply (.reconcile .epoch ⟨"edp-dev", "qa"⟩)
    let provisioned (s : Stage) := s.status.any fun x => x.available && x.result == "success"
    w.config.managesNamespaces = true ∧ ∃ a b,
      w.cluster.stages.get? ⟨"edp-dev", "qa"⟩ = some a ∧
      w.cluster.stages.get? ⟨"edp", "dev-qa"⟩ = some b ∧ provisioned a = true ∧
      provisioned b = true ∧ a.isBeingDeleted = true ∧ b.isBeingDeleted = false ∧
      w.cluster.namespaces.contains b.targetNamespace = true ∧
      after.cluster.namespaces.contains b.targetNamespace = false := by
  intro w after provisioned
  obtain ⟨hmanages, ha, hb, hthere, hgone⟩ : w.config.managesNamespaces = true ∧
      (w.cluster.stages.get? ⟨"edp-dev", "qa"⟩).any
        (fun s => provisioned s && s.isBeingDeleted) = true ∧
      (w.cluster.stages.get? ⟨"edp", "dev-qa"⟩).any
        (fun s => provisioned s && !s.isBeingDeleted && s.targetNamespace == "edp-dev-qa") = true ∧
      w.cluster.namespaces.contains "edp-dev-qa" = true ∧
      after.cluster.namespaces.contains "edp-dev-qa" = false := by
    decide +kernel
  obtain ⟨a, ha, hsampleA⟩ := (Option.any_eq_true ..).1 ha
  obtain ⟨b, hb, hsampleB⟩ := (Option.any_eq_true ..).1 hb
  simp only [Bool.and_eq_true, Bool.not_eq_true', beq_iff_eq] at hsampleA hsampleB
  obtain ⟨ha', hdeleted⟩ := hsampleA
  obtain ⟨⟨hb', hlive⟩, htarget⟩ := hsampleB
  rw [← htarget] at hthere hgone
  exact ⟨hmanages, a, b, ha, hb, ha', hb', hdeleted, hlive, hthere, hgone⟩

end World

end Conveyor
