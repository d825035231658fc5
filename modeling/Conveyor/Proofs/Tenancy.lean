import Conveyor.Proofs.Delivery
import Conveyor.Proofs.DeletionOrder
import Conveyor.Proofs.Targets

/-!
The places of stages over their whole lives, where they are managed here. A stage that has been
provisioned with success has its namespace, and when a stage is let go its target is gone.

Two chains are at work, one that makes targets and one that removes them, and each takes what it
finds done already for its own work. They agree because a platform has its own sort of place: what
is there is what suits the platform (`Places.Suits`). Spaces are the exception. What is removed on
Kubernetes is the namespace, also where it came with a space, and the space stays. It passes for a
target that is there, so a namespace that was taken from a space is not made again.
-/

namespace Conveyor

open Session Cluster

variable {config : Config} {s : Stage} {F : Error → Prop} {c c' : Cluster} {name : String}

/-! ### What suits the platform -/

/-- The request is none about places of a sort that the platform does not have. -/
def Request.Suits (config : Config) : Request → Prop
  | createNamespace _ | deleteNamespace _ => config.isKubernetes = true
  | createSpace .. => (config.isKubernetes && config.usesSpaces) = true
  | createProject .. | deleteProject _ => config.isKubernetes = false
  | _ => True

theorem Request.suits_of_part_ne {r : Request} (h : r.part ≠ some .places)
    (h' : r.part ≠ some .removals) : r.Suits config := by
  cases r <;> trivial

/-- The places are of the sorts that the platform has. Where it has projects, each comes with a
namespace, and there are no others. -/
structure Places.Suits (config : Config) (x : Places) : Prop where
  spaces : (config.isKubernetes && config.usesSpaces) = false → ∀ name,
    x.spaces.contains name = false
  projects : config.isKubernetes = true → ∀ name, x.projects.contains name = false
  namespaces : config.isKubernetes = false → ∀ name,
    x.namespaces.contains name = x.projects.contains name

/-- Where there is a space of that name, its namespace is there. -/
def Places.Housed (name : String) (x : Places) : Prop :=
  x.spaces.contains name = true → x.namespaces.contains name = true

theorem Places.suits_empty (config : Config) : Places.Suits config ⟨∅, ∅, ∅⟩ :=
  ⟨fun _ _ => rfl, fun _ _ => rfl, fun _ _ => rfl⟩

/-- **The target is where the platform has it**, and its namespace is there with it. -/
theorem Places.namespace_of_hasTarget {x : Places} (hmanaged : config.managesNamespaces = true)
    (hsuits : x.Suits config)
    (hhoused : (config.isKubernetes && config.usesSpaces) = true → x.Housed s.targetNamespace)
    (h : x.hasTarget config s = true) : x.namespaces.contains s.targetNamespace = true := by
  rw [hasTarget, if_neg (by rw [hmanaged]; decide)] at h
  split at h
  · next hspaces => exact hhoused hspaces h
  · split at h
    · exact h
    · next hkubernetes =>
      exact (hsuits.namespaces (Bool.eq_false_iff.2 hkubernetes) _).trans h

/-- **Where the target has been removed nothing is left of it**, but perhaps a space. -/
theorem Target.Gone.not_there (hmanaged : config.managesNamespaces = true)
    (hsuits : c.places.Suits config) (h : Gone config s c) :
    c.namespaces.contains s.targetNamespace = false ∧
      c.projects.contains s.targetNamespace = false ∧
      ((config.isKubernetes && config.usesSpaces) = false →
        c.spaces.contains s.targetNamespace = false) := by
  have hgone := h hmanaged
  cases hkubernetes : config.isKubernetes with
  | true =>
      rw [if_pos hkubernetes] at hgone
      exact ⟨hgone, hsuits.projects hkubernetes _, fun hno => hsuits.spaces (by rwa [hkubernetes]) _⟩
  | false =>
      rw [if_neg (by rw [hkubernetes]; decide)] at hgone
      refine ⟨(hsuits.namespaces hkubernetes _).trans hgone, hgone, fun hno => ?_⟩
      exact hsuits.spaces (by rwa [hkubernetes]) _

namespace Cluster

theorem suits_serve {r : Request} (hr : r.Suits config) (h : c.places.Suits config) :
    (c.serve r).2.places.Suits config := by
  cases r with
  | createNamespace | deleteNamespace =>
      have hkubernetes : config.isKubernetes = true := hr
      simp only [serve, createNamespace, deleteNamespace]
      split
      all_goals first
        | exact h
        | exact ⟨h.spaces, h.projects, fun hno => absurd (hkubernetes.symm.trans hno) (by decide)⟩
  | createSpace =>
      have hspaces : (config.isKubernetes && config.usesSpaces) = true := hr
      have hkubernetes : config.isKubernetes = true := (Bool.and_eq_true_iff.1 hspaces).1
      simp only [serve, createSpace]
      split
      · exact h
      · exact ⟨fun hno => absurd (hspaces.symm.trans hno) (by decide), h.projects,
          fun hno => absurd (hkubernetes.symm.trans hno) (by decide)⟩
  | createProject =>
      have hopenshift : config.isKubernetes = false := hr
      simp only [serve, createProject]
      split
      · exact h
      · refine ⟨h.spaces, fun hno => absurd (hopenshift.symm.trans hno) (by decide), fun _ l => ?_⟩
        simp only [places, Dict.contains_insert]
        exact congrArg (decide _ || ·) (h.namespaces hopenshift l)
  | deleteProject =>
      have hopenshift : config.isKubernetes = false := hr
      simp only [serve, deleteProject]
      split
      · refine ⟨h.spaces, fun hno => absurd (hopenshift.symm.trans hno) (by decide), fun _ l => ?_⟩
        simp only [places, Dict.contains_erase]
        exact congrArg (!decide _ && ·) (h.namespaces hopenshift l)
      · exact h
  | _ =>
      rw [places_serve (by intro hpart; cases hpart) (by intro hpart; cases hpart)]
      exact h

theorem spaces_serve {r : Request} (hr : ∀ name account, r ≠ .createSpace name account)
    (c : Cluster) : (c.serve r).2.spaces = c.spaces := by
  cases r with
  | createSpace name account => exact absurd rfl (hr name account)
  | createNamespace | createProject | deleteNamespace | deleteProject =>
      simp only [serve, createNamespace, createProject, deleteNamespace, deleteProject]
      split <;> rfl
  | _ =>
      exact congrArg Places.spaces
        (places_serve (by intro hpart; cases hpart) (by intro hpart; cases hpart) c)

/-- A space comes with its namespace and keeps it as long as that is not removed. -/
theorem housed_serve {r : Request} (hr : r.removes ≠ some name) (h : c.places.Housed name) :
    (c.serve r).2.places.Housed name := by
  have hkeeps := (keepsPlace_serve hr c).namespaces
  by_cases hspace : ∃ other account, r = .createSpace other account
  · obtain ⟨other, account, rfl⟩ := hspace
    simp only [serve, createSpace]
    split
    · exact h
    · intro hthere
      simp only [places, Dict.contains_insert, Bool.or_eq_true] at hthere ⊢
      exact hthere.imp_right h
  · have hsame : (c.serve r).2.spaces = c.spaces :=
      spaces_serve (fun other account hr => hspace ⟨other, account, hr⟩) c
    intro hthere
    rw [places, hsame] at hthere
    exact hkeeps (h hthere)

end Cluster

/-! ### The making and the removal of a target -/

namespace Target

theorem strict_placing (hF : ∀ e, F e → e.isAlreadyExists = false) (config : Config) (s : Stage) :
    (placing config s).Strict F :=
  strict_ite (strict_require s) <|
    strict_ite (strict_tolerate hF ensures_request_or_fault) <|
      strict_ite (strict_tolerate hF ensures_request_or_fault)
        (strict_tolerate hF ensures_request_or_fault)

/-- A target that was made with success is there, unless the cluster says that it was there already
when it was not. -/
theorem ensures_placing_hasTarget (hF : ∀ e, F e → e.isAlreadyExists = false) :
    (placing config s).Ensures F c fun r c' => r = .ok () →
      c'.places.hasTarget config s = true := by
  refine ((strict_placing hF config s).ensures (ensures_placing (S := False))).mono ?_
  rintro r c' h hr
  obtain ⟨-, hthere, hcontents⟩ := ((h () hr).success () rfl).resolve_left (by simp)
  have hplaces : c'.places = c.places.supply config s := congrArg Contents.places hcontents
  rw [hplaces]
  exact Places.hasTarget_supply hthere

theorem asks_placing_suits (config : Config) (s : Stage) :
    (placing config s).Asks (Request.Suits config) :=
  asks_placing_of trivial (fun hspaces _ => hspaces) id fun hno _ => hno

theorem asks_removal_suits (config : Config) (s : Stage) :
    (removal config s).Asks (Request.Suits config) :=
  asks_removal_of (fun _ hkubernetes => hkubernetes) fun _ hno => hno

/-- No space is asked for in the course of a removal. -/
theorem asks_removal_of_no_space (config : Config) (s : Stage) :
    (removal config s).Asks fun r => ∀ name account, r ≠ .createSpace name account :=
  asks_removal_of (fun _ _ _ _ hr => by cases hr) fun _ _ _ _ hr => by cases hr

theorem Gone.of_places (h : Gone config s c) (hplaces : c'.places = c.places) :
    Gone config s c' := by
  have hnamespaces : c'.namespaces = c.namespaces := congrArg Places.namespaces hplaces
  have hprojects : c'.projects = c.projects := congrArg Places.projects hplaces
  rwa [Gone, hnamespaces, hprojects]

end Target

/-! ### The whole reconcile -/

theorem ensures_provision_hasTarget (hF : ∀ e, F e → e.isAlreadyExists = false) :
    (provision config s).Ensures F c fun r c' => r = .ok () →
      c'.places.hasTarget config s = true := by
  rw [Target.provision_eq]
  refine (Target.ensures_placing_hasTarget hF).bind (fun u d hthere => ?_)
    fun e d _ he => absurd he error_ne_ok
  have hrest : (Access.configure config s >>= fun _ => Promotion.promote s >>= fun _ =>
      ReleaseJob.put s).Asks (Request.Within [.access, .imageStreams, .releaseJobs]) :=
    ((Access.asks_configure config s).wider (by simp)).bind fun _ =>
      ((Promotion.asks_promote s).wider (by simp)).bind fun _ =>
        (ReleaseJob.asks_put s).wider (by simp)
  refine (hrest.ensures_places (by decide) (by decide)).mono fun r d' hplaces _ => ?_
  rw [hplaces]
  exact hthere rfl

namespace Stage

/-- **Success has made the target.** -/
theorem ensures_reconcile_hasTarget (hF : ∀ e, F e → e.isAlreadyExists = false) (config : Config)
    (now : Timestamp) (hlive : s.isBeingDeleted = false) :
    (s.reconcile config now).Ensures F c fun r c' => ∀ a, r = .ok a →
      c'.places.hasTarget config s = true := by
  rw [reconcile, if_neg (by rw [hlive]; decide)]
  -- What comes before the making of the target does not matter.
  refine (ensures_true _).bind (fun _ c₁ _ => ?_) fun e c₁ _ a ha => absurd ha error_ne_ok
  have hprovisioned : (s.provisionOwned config).Ensures F c₁ fun r c₂ => r = .ok () →
      c₂.places.hasTarget config s = true :=
    (ensures_true _).bind (fun _ d _ => ensures_provision_hasTarget hF)
      fun e d _ he => absurd he error_ne_ok
  refine ensures_attempt_bind.2 (hprovisioned.mono ?_)
  rintro (e | u) c₂ hthere
  · exact (ensures_report_error e).mono fun r c₃ hr a ha => absurd (hr.symm.trans ha) error_ne_ok
  · refine (((s.asks_report now (.ok u)).mono fun _ hr => hr.1).ensures_places (by decide)
      (by decide)).mono fun r c₃ hplaces a _ => ?_
    rw [hplaces]
    exact hthere rfl

/-- **A stage is let go when its target is gone.** -/
theorem ensures_reconcile_gone (hF : ∀ e, F e → e.isNotFound = false) (config : Config)
    (now : Timestamp) (s : Stage) :
    (s.reconcile config now).Ensures F c fun _ c' => ∀ k a, c.Releases c' k a →
      Target.Gone config s c' := by
  cases hdeleted : s.isBeingDeleted with
  | false =>
      have hkeep : (s.reconcile config now).Ensures F c fun _ c' => c.KeepsFinalizers c' :=
        (asks_reconcile_of_live config now hdeleted).ensures
          (fun r d hr hd => hd.trans (keepsFinalizers_serve hr.2 d)) (.refl c)
      exact hkeep.mono fun _ c' h k a hreleases => absurd hreleases (h.not_releases k a)
  | true =>
      have hstay {c' : Cluster} (h : c'.stages = c.stages) (k : ObjectKey) (a : Stage) :
          ¬ c.Releases c' k a := not_releases_of_get?_eq (congrArg (·.get? k) h) a
      simp only [reconcile, hdeleted, if_true]
      refine ensures_reconcileDeletion (ensures_advanceDeletion _ rfl
        (fun e _ k a h => absurd h (hstay rfl k a)) (fun _ k a h => absurd h (hstay rfl k a))
        fun _ => ?_)
      rw [Target.deprovision_eq, bind_assoc]
      refine ((Retirement.asks_deleteEnvironmentLabels s).ensures_stages (by decide)).bind
        (fun _ c₁ h₁ => ?_) fun e c₁ h₁ k a h => absurd h (hstay h₁ k a)
      refine (Target.ensures_removal config s hF).bind (fun _ c₂ hremoved => ?_) ?_
      · refine (s.asks_releaseFinalizer.ensures_places (by decide) (by decide)).mono ?_
        exact fun r c₃ hplaces k a _ => hremoved.2.of_places hplaces
      · rintro e c₂ ⟨⟨_, _, rfl⟩, -⟩ k a h
        exact absurd h (hstay h₁ k a)

theorem asks_reconcile_suits (config : Config) (now : Timestamp) (s : Stage) :
    (s.reconcile config now).Asks (Request.Suits config) :=
  asks_reconcile config now s (fun _ h h' => Request.suits_of_part_ne h h')
    (fun _ => Target.asks_placing_suits config s) fun _ => Target.asks_removal_suits config s

/-- A space keeps its namespace, unless the reconcile is one that takes the namespace away. -/
theorem ensures_reconcile_housed (config : Config) (now : Timestamp) (s : Stage)
    (h : c.places.Housed name) :
    (s.reconcile config now).Ensures F c fun _ c' =>
      (s.isBeingDeleted = true → c.namespaces.contains name = true →
        c'.namespaces.contains name = true) → c'.places.Housed name := by
  cases hdeleted : s.isBeingDeleted with
  | false =>
      refine Ensures.mono ?_ fun _ c' hhoused _ => hhoused
      refine (s.asks_reconcile_removes config now).ensures (fun r d hr hd => ?_) h
      refine housed_serve (fun hname => ?_) hd
      exact absurd (hdeleted.symm.trans (hr name hname).1) (by decide)
  | true =>
      have hasks : (s.reconcile config now).Asks fun r =>
          ∀ other account, r ≠ .createSpace other account := by
        refine asks_reconcile config now s (fun r hplaces _ other account hr => ?_)
          (fun hlive => absurd (hlive.symm.trans hdeleted) (by decide))
          fun _ => Target.asks_removal_of_no_space config s
        subst hr
        exact hplaces rfl
      have hspaces : (s.reconcile config now).Ensures F c fun _ c' => c'.spaces = c.spaces :=
        hasks.ensures (fun r d hr hd => (spaces_serve hr d).trans hd) rfl
      refine hspaces.mono fun _ c' hsame hkept hthere => ?_
      rw [places, hsame] at hthere
      exact hkept rfl (h hthere)

end Stage

/-! ### Runs -/

/-- The step leaves the places to the operator, and failures do not tell of places that are not
there or there already. -/
def Step.LeavesPlaces : Step → Prop
  | .insertNamespace _ | .setConfig _ => False
  | .script f => f.error.IsOutage
  | _ => True

namespace World

/-- The operator works under a configuration, and its places are of the sorts that suit it. -/
structure Orderly (config : Config) (w : World) : Prop where
  configured : w.config = config
  fails : w.observed.FailsWith Error.IsOutage
  suits : w.cluster.places.Suits config

/-- None of the steps takes the name out of the namespaces. Only the reconcile of a deleted stage with
that target can (`World.exists_removal`). -/
def KeepsNamespace (name : String) : World → List Step → Prop
  | _, [] => True
  | w, step :: steps =>
    (w.cluster.namespaces.contains name = true →
      (w.apply step).cluster.namespaces.contains name = true) ∧
        (w.apply step).KeepsNamespace name steps

instance decidableKeepsNamespace (name : String) (w : World) :
    (steps : List Step) → Decidable (w.KeepsNamespace name steps)
  | [] => inferInstanceAs (Decidable True)
  | step :: steps =>
    have := decidableKeepsNamespace name (w.apply step) steps
    inferInstanceAs (Decidable (_ ∧ _))

variable {w : World} {step : Step} {steps : List Step}

/-- The places are the same after each step but a reconcile. -/
theorem places_apply (h : step.LeavesPlaces) (hother : ∀ now key, step ≠ .reconcile now key) :
    (w.apply step).cluster.places = w.cluster.places := by
  cases step with
  | insertNamespace | setConfig => exact h.elim
  | reconcile now key => exact absurd rfl (hother now key)
  | markDeleting now key =>
      simp only [apply]
      split <;> rfl
  | failNext o =>
      simp only [apply, arrange, ObservedCluster.arrange, cluster, Cluster.failNext]
      split <;> rfl
  | _ => rfl

theorem Orderly.apply (hw : w.Orderly config) (h : step.LeavesPlaces) :
    (w.apply step).Orderly config := by
  cases step with
  | insertNamespace | setConfig => exact h.elim
  | script f =>
      refine ⟨hw.configured, ⟨fun g hg => ?_, hw.fails.stored⟩, hw.suits⟩
      rcases List.mem_append.1 hg with hg | hg
      · exact hw.fails.scripted g hg
      · exact List.mem_singleton.1 hg ▸ h
  | reconcile now key =>
      obtain rfl := hw.configured
      have hattempt : (Step.reconcile now key).IsAttempt Error.IsOutage key := rfl
      obtain ⟨hsuits, hfails, hconfig⟩ :=
        attempt_keeps (I := fun c => c.places.Suits w.config) isOutage_injectedFault hw.fails
          (fun now c s hc _ => (s.asks_reconcile_suits w.config now).ensures
            (fun r d hr hd => suits_serve hr hd) hc)
          hw.suits hattempt
      exact ⟨hconfig, hfails, hsuits⟩
  | markDeleting now key =>
      have hplaces := places_apply (w := w) h fun now key hstep => by cases hstep
      refine ⟨?_, ⟨?_, fun o _ => isOutage_injectedFault o⟩, hplaces ▸ hw.suits⟩
      all_goals
        simp only [World.apply]
        split
      · exact hw.configured
      · exact hw.configured
      · exact hw.fails.scripted
      · exact hw.fails.scripted
  | _ =>
      have hplaces := places_apply (w := w) h fun now key hstep => by cases hstep
      exact ⟨hw.configured, ⟨hw.fails.scripted, fun o _ => isOutage_injectedFault o⟩,
        hplaces ▸ hw.suits⟩

theorem Orderly.run (hw : w.Orderly config) (h : ∀ step ∈ steps, step.LeavesPlaces) :
    (w.run steps).Orderly config := by
  induction steps generalizing w with
  | nil => exact hw
  | cons step steps ih =>
      obtain ⟨hstep, hsteps⟩ := List.forall_mem_cons.1 h
      exact ih (hw.apply hstep) hsteps

theorem housed_apply (h : step.LeavesPlaces)
    (hkept : w.cluster.namespaces.contains name = true →
      (w.apply step).cluster.namespaces.contains name = true)
    (hhoused : w.cluster.places.Housed name) : (w.apply step).cluster.places.Housed name := by
  by_cases hreconcile : ∃ now key, step = .reconcile now key
  · obtain ⟨now, key, rfl⟩ := hreconcile
    cases hs : w.cluster.stages.get? key with
    | none =>
        simp only [apply, cluster, ObservedCluster.reconcile_of_absent hs]
        exact hhoused
    | some s =>
        have hfails : w.observed.FailsWith fun _ => True := ⟨fun _ _ => trivial, fun _ _ => trivial⟩
        obtain ⟨-, -, hafter⟩ := ObservedCluster.reconcile_of_ensures hfails hs
          (s.ensures_reconcile_housed w.config now hhoused)
        exact hafter fun _ => hkept
  · rw [places_apply h fun now key hstep => hreconcile ⟨now, key, hstep⟩]
    exact hhoused

/-- A space that the operator has made keeps its namespace as long as no step takes that away. -/
theorem housed_run (h : ∀ step ∈ steps, step.LeavesPlaces) (hkept : w.KeepsNamespace name steps)
    (hhoused : w.cluster.places.Housed name) : (w.run steps).cluster.places.Housed name := by
  induction steps generalizing w with
  | nil => exact hhoused
  | cons step steps ih =>
      obtain ⟨hstep, hsteps⟩ := List.forall_mem_cons.1 h
      obtain ⟨hfirst, hrest⟩ := hkept
      exact ih hsteps hrest (housed_apply hstep hfirst hhoused)

/-- **Stages and their places.** Where namespaces are managed here and none was there at first, a
stage that has been reconciled with success has its target in the form that the platform is asked
for, and its namespace; where that comes with a space, the namespace is there as long as no step has
taken it away. And when a reconcile lets a stage go, neither namespace nor project is left of its
target, and no space where the platform gives none. -/
theorem tenancy_follows_stages (hmanaged : w.config.managesNamespaces = true)
    (hfails : w.observed.FailsWith Error.IsOutage) (hempty : w.cluster.places = ⟨∅, ∅, ∅⟩)
    (hsteps : ∀ step ∈ steps, step.LeavesPlaces) {key : ObjectKey} {s : Stage}
    (hs : (w.run steps).cluster.stages.get? key = some s) (now : Timestamp) :
    let before := (w.run steps).cluster
    let after := ((w.run steps).apply (.reconcile now key)).cluster
    let givesSpaces := w.config.isKubernetes && w.config.usesSpaces
    (s.isBeingDeleted = false → (∃ a, (w.run steps).answer now key = some (.ok a)) →
      after.places.hasTarget w.config s = true ∧
        ((givesSpaces = true → w.KeepsNamespace s.targetNamespace steps) →
          after.namespaces.contains s.targetNamespace = true)) ∧
    (before.Releases after key s →
      after.namespaces.contains s.targetNamespace = false ∧
        after.projects.contains s.targetNamespace = false ∧
          (givesSpaces = false → after.spaces.contains s.targetNamespace = false)) := by
  intro before after givesSpaces
  have horderly : (w.run steps).Orderly w.config :=
    Orderly.run ⟨rfl, hfails, hempty ▸ Places.suits_empty _⟩ hsteps
  have hstep : (Step.reconcile now key).LeavesPlaces := trivial
  have hsuits : after.places.Suits w.config := (horderly.apply hstep).suits
  constructor
  · rintro hlive ⟨a, ha⟩
    obtain ⟨r, hr, hthere⟩ := ObservedCluster.reconcile_of_ensures horderly.fails hs
      (s.ensures_reconcile_hasTarget (fun _ he => he.2) (w.run steps).config now hlive)
    obtain rfl : r = .ok a := Option.some.inj (hr.symm.trans ha)
    have hthere : after.places.hasTarget (w.run steps).config s = true := hthere a rfl
    rw [horderly.configured] at hthere
    refine ⟨hthere, fun hkept => ?_⟩
    refine Places.namespace_of_hasTarget hmanaged hsuits (fun hspaces => ?_) hthere
    have hbefore : before.places.Housed s.targetNamespace :=
      housed_run hsteps (hkept hspaces) (hempty ▸ fun hthere => by cases hthere)
    obtain ⟨-, -, hafter⟩ := ObservedCluster.reconcile_of_ensures horderly.fails hs
      (s.ensures_reconcile_housed (w.run steps).config now hbefore)
    exact hafter fun hdeleted => absurd (hlive.symm.trans hdeleted) (by decide)
  · intro hreleases
    obtain ⟨-, -, hgone⟩ := ObservedCluster.reconcile_of_ensures horderly.fails hs
      (s.ensures_reconcile_gone (fun _ he => he.1) (w.run steps).config now)
    have hgone : Target.Gone (w.run steps).config s after := hgone key s hreleases
    rw [horderly.configured] at hgone
    exact hgone.not_there hmanaged hsuits

open Sample in
/-- A stage has its namespace when it comes, here with a space. Where there are no spaces, its project
goes with it, and comes again with the next stage of that name. -/
theorem tenancy_follows_stage_that_comes_again :
    let spacious : World := { config := { platform := .kubernetes, usesSpaces := true } }
    let coming := arranging ++ [.insertStage (stage "dev" 0)]
    let comingAgain :=
      stageLeaving ++ [.reconcile .epoch (key "dev"), .insertStage (stage "dev" 0)]
    let come := (spacious.run coming).apply (.reconcile .epoch (key "dev"))
    let left := (({} : World).run stageLeaving).apply (.reconcile .epoch (key "dev"))
    let again := (({} : World).run comingAgain).apply (.reconcile .epoch (key "dev"))
    come.cluster.namespaces.contains "edp-dev" = true ∧
      left.cluster.namespaces.contains "edp-dev" = false ∧
      left.cluster.projects.contains "edp-dev" = false ∧
      again.cluster.namespaces.contains "edp-dev" = true := by
  intro spacious coming comingAgain come left again
  obtain ⟨hcoming, hcame, hkept⟩ :
      ((spacious.run coming).cluster.stages.get? (key "dev")).any
          (fun s => s.targetNamespace == "edp-dev" && !s.isBeingDeleted) = true ∧
        (spacious.run coming).answer .epoch (key "dev") = some (.ok .awaitChange) ∧
        spacious.KeepsNamespace "edp-dev" coming := by
    decide +kernel
  obtain ⟨hleaving, hgone, hback, hagain⟩ :
      ((({} : World).run stageLeaving).cluster.stages.get? (key "dev")).any
          (·.targetNamespace == "edp-dev") = true ∧
        left.cluster.stages.get? (key "dev") = none ∧
        ((({} : World).run comingAgain).cluster.stages.get? (key "dev")).any
          (fun s => s.targetNamespace == "edp-dev" && !s.isBeingDeleted) = true ∧
        (({} : World).run comingAgain).answer .epoch (key "dev") = some (.ok .awaitChange) := by
    decide +kernel
  have hcalm : ({} : ObservedCluster).FailsWith Error.IsOutage := by decide
  have hthere : come.cluster.namespaces.contains "edp-dev" = true := by
    obtain ⟨s, hs, hsample⟩ := (Option.any_eq_true ..).1 hcoming
    simp only [Bool.and_eq_true, Bool.not_eq_true', beq_iff_eq] at hsample
    obtain ⟨hcome, -⟩ := tenancy_follows_stages (w := spacious) rfl hcalm rfl
      (by simp [coming, arranging, Step.LeavesPlaces]) hs .epoch
    have hthere := (hcome hsample.2 ⟨_, hcame⟩).2
    rw [hsample.1] at hthere
    exact hthere fun _ => hkept
  have hreleased : left.cluster.namespaces.contains "edp-dev" = false ∧
      left.cluster.projects.contains "edp-dev" = false := by
    obtain ⟨s, hs, htarget⟩ := (Option.any_eq_true ..).1 hleaving
    obtain ⟨-, hleft⟩ := tenancy_follows_stages (w := {}) rfl hcalm rfl
      (by simp [stageLeaving, arranging, Step.LeavesPlaces]) hs .epoch
    rw [eq_of_beq htarget] at hleft
    obtain ⟨hnamespace, hproject, -⟩ := hleft ⟨hs, .inl hgone⟩
    exact ⟨hnamespace, hproject⟩
  obtain ⟨s, hs, hsample⟩ := (Option.any_eq_true ..).1 hback
  simp only [Bool.and_eq_true, Bool.not_eq_true', beq_iff_eq] at hsample
  obtain ⟨hcomeAgain, -⟩ := tenancy_follows_stages (w := {}) rfl hcalm rfl
    (by simp [comingAgain, stageLeaving, arranging, Step.LeavesPlaces]) hs .epoch
  have hthereAgain := (hcomeAgain hsample.2 ⟨_, hagain⟩).2
  rw [hsample.1] at hthereAgain
  exact ⟨hthere, hreleased.1, hreleased.2, hthereAgain fun hspaces => by cases hspaces⟩

open Sample in
/-- In space mode a space outlives its stage, and the stage that comes next under that name gets no
namespace. -/
theorem space_outlives_stage :
    let w : World := { config := { platform := .kubernetes, usesSpaces := true } }
    let leaving := w.run stageLeaving
    let left := leaving.apply (.reconcile .epoch (key "dev"))
    let back := left.apply (.insertStage (stage "dev" 0))
    let again := back.apply (.reconcile .epoch (key "dev"))
    w.config.managesNamespaces = true ∧ w.cluster.places = ⟨∅, ∅, ∅⟩ ∧
      (∀ step ∈ stageLeaving, step.LeavesPlaces) ∧
      (∃ s, leaving.cluster.Releases left.cluster (key "dev") s ∧
        left.cluster.spaces.contains s.targetNamespace = true) ∧
      ∃ s, back.cluster.stages.get? (key "dev") = some s ∧ s.isBeingDeleted = false ∧
        back.answer .epoch (key "dev") = some (.ok .awaitChange) ∧
        again.cluster.namespaces.contains s.targetNamespace = false := by
  intro w leaving left back again
  obtain ⟨hleaving, hgone, hspace, hback, hok, hmissing⟩ :
      (leaving.cluster.stages.get? (key "dev")).any (·.targetNamespace == "edp-dev") = true ∧
        left.cluster.stages.get? (key "dev") = none ∧
        left.cluster.spaces.contains "edp-dev" = true ∧
        (back.cluster.stages.get? (key "dev")).any
          (fun s => s.targetNamespace == "edp-dev" && !s.isBeingDeleted) = true ∧
        back.answer .epoch (key "dev") = some (.ok .awaitChange) ∧
        again.cluster.namespaces.contains "edp-dev" = false := by
    decide +kernel
  refine ⟨rfl, rfl, ?_, ?_, ?_⟩
  · simp [stageLeaving, arranging, Step.LeavesPlaces]
  · obtain ⟨s, hs, htarget⟩ := (Option.any_eq_true ..).1 hleaving
    exact ⟨s, ⟨hs, .inl hgone⟩, (eq_of_beq htarget).symm ▸ hspace⟩
  · obtain ⟨s, hs, hsample⟩ := (Option.any_eq_true ..).1 hback
    simp only [Bool.and_eq_true, Bool.not_eq_true', beq_iff_eq] at hsample
    exact ⟨s, hs, hsample.2, hok, hsample.1.symm ▸ hmissing⟩

end World

end Conveyor
