import Conveyor.Proofs.Frame
import Conveyor.Proofs.Lockstep
import Conveyor.Proofs.StaleCopies

/-!
Tenants who do not notice each other. Two stages of different namespaces, with different targets,
are reconciled one after the other, and it makes no difference which of them comes first: either
finds the same, ends the same, is told of by the same notices, and leaves the same behind.

A reconcile keeps to the namespace of its stage and to its target (`SameOutside`), so the other
stage finds there what it would have found anyway, only under a counter that has gone on. Versions
that were there before keep their names, and those to come are put off by what the counter has gone
on by (`putOff`); so the two clusters are twins for the other stage, and its reconcile goes the same
way on both. The namespace of one stage may well be the target of the other, since nothing that is
kept with a stage is kept with a target.
-/

namespace Conveyor

open Session
open Resource (unversioned)

namespace Cluster

/-! ### Versions that were given out -/

/-- All objects are stored under versions that the cluster has given out. -/
def Issued {α : Type} [Resource α] (os : Objects α) (c : Cluster) : Prop :=
  ∀ k a, os.get? k = some a → c.HasGiven (Resource.metadata a).resourceVersion

/-- Streams and jobs have versions that were given out, as stages do. -/
theorem Reachable.issued {c : Cluster} (h : c.Reachable) :
    Issued c.imageStreams c ∧ Issued c.releaseJobs c := by
  refine ⟨fun k x hx => ?_, fun k j hj => ?_⟩
  · exact h.distinct.hasGiven (p := ⟨.imageStreams, k⟩) (congrArg (Option.map _) hx)
  · exact h.distinct.hasGiven (p := ⟨.releaseJobs, k⟩) (congrArg (Option.map _) hj)

/-! ### Versions that are put off -/

open Classical in
/-- The versions after the `m`-th are put off to come after the `m'`-th; others stay. -/
noncomputable def putOff (m m' : Nat) (version : String) : String :=
  if h : ∃ i, version = versionText (m + 1 + i) then versionText (m' + 1 + h.choose) else version

theorem putOff_next (m m' i : Nat) :
    putOff m m' (versionText (m + 1 + i)) = versionText (m' + 1 + i) := by
  have h : ∃ j, versionText (m + 1 + i) = versionText (m + 1 + j) := ⟨i, rfl⟩
  have hi : m + 1 + i = m + 1 + h.choose := versionText_injective h.choose_spec
  rw [putOff, dif_pos h, ← Nat.add_left_cancel hi]

theorem putOff_of_le {m n : Nat} (hn : n ≤ m) (m' : Nat) :
    putOff m m' (versionText n) = versionText n := by
  refine dif_neg ?_
  rintro ⟨i, hi⟩
  have := versionText_injective hi
  omega

theorem putOff_injective {m m' : Nat} (hm : m ≤ m') : Function.Injective (putOff m m') := by
  -- What stays is none of the versions after the `m`-th, and so none after the `m'`-th either.
  have hapart {v : String} (hv : ¬ ∃ i, v = versionText (m + 1 + i)) (i : Nat) :
      v ≠ versionText (m' + 1 + i) := fun h => hv ⟨m' - m + i, by rw [h]; congr 1; omega⟩
  intro v w h
  by_cases hv : ∃ i, v = versionText (m + 1 + i) <;> by_cases hw : ∃ i, w = versionText (m + 1 + i)
  · obtain ⟨i, rfl⟩ := hv
    obtain ⟨j, rfl⟩ := hw
    rw [putOff_next, putOff_next] at h
    rw [Nat.add_left_cancel (versionText_injective h)]
  · obtain ⟨i, rfl⟩ := hv
    rw [putOff_next, putOff, dif_neg hw] at h
    exact absurd h.symm (hapart hw i)
  · obtain ⟨j, rfl⟩ := hw
    rw [putOff_next, putOff, dif_neg hv] at h
    exact absurd h (hapart hv j)
  · rwa [putOff, dif_neg hv, putOff, dif_neg hw] at h

theorem HasGiven.putOff {c : Cluster} {version : Option String} (h : c.HasGiven version)
    (m' : Nat) : version.map (Cluster.putOff c.revision m') = version := by
  obtain ⟨n, hn, rfl⟩ := h
  exact congrArg some (putOff_of_le hn m')

/-! ### What is stored elsewhere -/

/-- Apart from the namespace of the stage and its target, the same is stored. -/
structure SameOutside (s : Stage) (c c' : Cluster) : Prop where
  stages : ∀ k, ¬ s.AtHome k → c'.stages.get? k = c.stages.get? k
  pipelines : c'.pipelines = c.pipelines
  components : c'.components = c.components
  imageStreams : ∀ k, ¬ s.AtHome k → c'.imageStreams.get? k = c.imageStreams.get? k
  releaseJobs : ∀ k, ¬ s.AtHome k → c'.releaseJobs.get? k = c.releaseJobs.get? k
  roles : ∀ k, ¬ s.AtTarget k → c'.roles.get? k = c.roles.get? k
  roleBindings : ∀ k, ¬ s.AtTarget k → c'.roleBindings.get? k = c.roleBindings.get? k
  namespaces : ∀ n, n ≠ s.targetNamespace → c'.namespaces.get? n = c.namespaces.get? n
  spaces : ∀ n, n ≠ s.targetNamespace → c'.spaces.get? n = c.spaces.get? n
  projects : ∀ n, n ≠ s.targetNamespace → c'.projects.get? n = c.projects.get? n

end Cluster

/-- Changes that are allowed at other keys only leave a key alone. -/
theorem Dict.ChangesBy.same {κ α : Type} [KeyOrder κ] {R : κ → Option α → Option α → Prop}
    {d d' : Dict κ α} (h : d.ChangesBy R d') {k : κ} (hk : ∀ x y, ¬ R k x y) :
    d'.get? k = d.get? k :=
  (h k).resolve_right (hk _ _)

open Cluster

section

variable {config : Config} {s : Stage} {c c' : Cluster}

theorem LiveFrame.sameOutside (h : LiveFrame config s c c') : SameOutside s c c' where
  stages _ hk := h.stages.same fun _ _ ⟨hkey, _⟩ => hk (hkey ▸ rfl)
  pipelines := h.pipelines
  components := h.components
  imageStreams _ hk := h.imageStreams.same fun _ _ ⟨⟨_, _, _, _, hkey⟩, _⟩ => hk (hkey ▸ rfl)
  releaseJobs _ hk := h.releaseJobs.same fun _ _ ⟨hkey, _⟩ => hk (hkey ▸ rfl)
  roles _ hk := h.roles.same fun _ _ ⟨hkey, _⟩ => hk (hkey ▸ rfl)
  roleBindings _ hk := h.roleBindings.same fun _ _ ⟨_, _, hkey, _⟩ => hk (hkey ▸ rfl)
  namespaces _ hn := h.namespaces.same fun _ _ ⟨hname, _⟩ => hn hname
  spaces _ hn := h.spaces.same fun _ _ ⟨hname, _⟩ => hn hname
  projects _ hn := h.projects.same fun _ _ ⟨hname, _⟩ => hn hname

theorem DeletionFrame.sameOutside (h : DeletionFrame s c c') : SameOutside s c c' where
  stages _ hk := h.stages.same fun _ _ ⟨hkey, _⟩ => hk (hkey ▸ rfl)
  pipelines := h.pipelines
  components := h.components
  imageStreams _ hk := h.imageStreams.same fun _ _ ⟨_, _, _, _, _, ⟨_, _, hkey⟩, _⟩ =>
    hk (hkey ▸ rfl)
  releaseJobs _ _ := by rw [h.releaseJobs]
  roles _ _ := by rw [h.roles]
  roleBindings _ _ := by rw [h.roleBindings]
  namespaces _ hn := h.namespaces.same fun _ _ ⟨hname, _⟩ => hn hname
  spaces _ _ := by rw [h.spaces]
  projects _ hn := h.projects.same fun _ _ ⟨hname, _⟩ => hn hname

/-- A reconcile keeps to the namespace of its stage and to its target. -/
theorem Stage.ensures_reconcile_sameOutside {F : Error → Prop} (config : Config) (now : Timestamp)
    (s : Stage) (hc : c.Coherent) :
    (s.reconcile config now).Ensures F c fun _ c' => SameOutside s c c' := by
  cases hdeleted : s.isBeingDeleted with
  | false =>
      exact (ensures_reconcile_liveFrame config now hdeleted hc).mono fun _ _ h => h.sameOutside
  | true =>
      exact (ensures_reconcile_deletionFrame config now hdeleted hc).mono fun _ _ h =>
        h.sameOutside

end

/-! ### Two stages -/

/-- The stages have neither the namespace nor the target in common. -/
structure Stage.Apart (a b : Stage) : Prop where
  home : a.namespaceName ≠ b.namespaceName
  target : a.targetNamespace ≠ b.targetNamespace

namespace Stage.Apart

variable {a b : Stage}

theorem symm (h : a.Apart b) : b.Apart a := ⟨h.home.symm, h.target.symm⟩

theorem not_atHome (h : a.Apart b) {k : ObjectKey} (hk : b.AtHome k) : ¬ a.AtHome k :=
  fun ha => h.home (ha.symm.trans hk)

theorem not_atTarget (h : a.Apart b) {k : ObjectKey} (hk : b.AtTarget k) : ¬ a.AtTarget k :=
  fun ha => h.target (ha.symm.trans hk)

theorem ne_target (h : a.Apart b) {n : String} (hn : n = b.targetNamespace) :
    n ≠ a.targetNamespace := fun ha => h.target (ha.symm.trans hn)

end Stage.Apart

/-- What is the same at the keys in question is paired with itself, if it goes with itself. -/
theorem Dict.paired_of_same {κ α : Type} [KeyOrder κ] {P : κ → Prop} {R : α → α → Prop}
    {d e : Dict κ α} (hsame : ∀ k, P k → e.get? k = d.get? k)
    (hrefl : ∀ k x, d.get? k = some x → R x x) : d.Paired P R e := by
  intro k hk
  rw [hsame k hk]
  cases hx : d.get? k with
  | none => exact .none
  | some x => exact .some (hrefl k x hx)

namespace Cluster

variable {a b : Stage} {c c' : Cluster}

/-- The other stage finds the same, under a counter that has gone on. -/
theorem SameOutside.twins (h : SameOutside a c c') (hapart : a.Apart b) (hc : c.Reachable) :
    Twins (putOff c.revision c'.revision) b c c' := by
  obtain ⟨hstreams, hjobs⟩ := hc.issued
  refine ⟨?stages, ?pipelines, ?components, ?imageStreams, ?releaseJobs, ?roles, ?roleBindings,
    ?namespaces, ?spaces, ?projects, fun i => putOff_next _ _ i⟩
  case stages =>
    refine Dict.paired_of_same (fun k hk => h.stages k (hapart.not_atHome hk)) fun k x hx => ?_
    have hversion := HasGiven.putOff (hc.exists_version hx) c'.revision
    exact ⟨by rw [hversion], rfl, rfl⟩
  case imageStreams =>
    refine Dict.paired_of_same (fun k hk => h.imageStreams k (hapart.not_atHome hk))
      fun k x hx => ?_
    rw [Resource.renamed, (hstreams k x hx).putOff]
    rfl
  case releaseJobs =>
    refine Dict.paired_of_same (fun k hk => h.releaseJobs k (hapart.not_atHome hk))
      fun k x hx => ?_
    rw [Resource.renamed, (hjobs k x hx).putOff]
    rfl
  case pipelines => exact Dict.paired_of_same (fun k _ => by rw [h.pipelines]) fun _ _ _ => rfl
  case components => exact Dict.paired_of_same (fun k _ => by rw [h.components]) fun _ _ _ => rfl
  case roles =>
    exact Dict.paired_of_same (fun k hk => h.roles k (hapart.not_atTarget hk)) fun _ _ _ => rfl
  case roleBindings =>
    exact Dict.paired_of_same (fun k hk => h.roleBindings k (hapart.not_atTarget hk))
      fun _ _ _ => rfl
  case namespaces =>
    exact Dict.paired_of_same (fun n hn => h.namespaces n (hapart.ne_target hn)) fun _ _ _ => rfl
  case spaces =>
    exact Dict.paired_of_same (fun n hn => h.spaces n (hapart.ne_target hn)) fun _ _ _ => rfl
  case projects =>
    exact Dict.paired_of_same (fun n hn => h.projects n (hapart.ne_target hn)) fun _ _ _ => rfl

end Cluster

namespace Dict

section

variable {κ α β : Type} [KeyOrder κ] {P Q : κ → Prop} {R S : α → α → Prop}
  {d d₁ d₂ d₁₂ d₂₁ : Dict κ α} (hPQ : ∀ k, Q k → ¬ P k)
  (h₁ : ∀ k, ¬ P k → d₁.get? k = d.get? k) (h₁₂ : ∀ k, ¬ Q k → d₁₂.get? k = d₁.get? k)
  (h₂ : ∀ k, ¬ Q k → d₂.get? k = d.get? k) (h₂₁ : ∀ k, ¬ P k → d₂₁.get? k = d₂.get? k)
include hPQ h₁ h₁₂ h₂ h₂₁

/-- Two changes of a dictionary at different keys, in both orders. Where each of them comes to the
same in both orders, so do the two together. -/
theorem map_get?_of_crossed {f : α → β} (hp : d₁.Paired P R d₂₁) (hq : d₂.Paired Q S d₁₂)
    (hR : ∀ x y, R x y → f y = f x) (hS : ∀ x y, S x y → f y = f x) (k : κ) :
    (d₁₂.get? k).map f = (d₂₁.get? k).map f := by
  by_cases hP : P k
  · rw [h₁₂ k fun hQ => hPQ k hQ hP]
    rcases hp.cases hP with ⟨hx, hy⟩ | ⟨x, y, hx, hy, hxy⟩
    · rw [hx, hy]
    · rw [hx, hy, Option.map_some, Option.map_some, hR x y hxy]
  · by_cases hQ : Q k
    · rw [h₂₁ k hP]
      rcases hq.cases hQ with ⟨hx, hy⟩ | ⟨x, y, hx, hy, hxy⟩
      · rw [hx, hy]
      · rw [hx, hy, Option.map_some, Option.map_some, hS x y hxy]
    · rw [h₁₂ k hQ, h₁ k hP, h₂₁ k hP, h₂ k hQ]

theorem eq_of_crossed (hp : d₁.Paired P Eq d₂₁) (hq : d₂.Paired Q Eq d₁₂) : d₁₂ = d₂₁ := by
  refine ext fun k => ?_
  have hmap := map_get?_of_crossed (f := id) hPQ h₁ h₁₂ h₂ h₂₁ hp hq (fun _ _ h => h.symm)
    (fun _ _ h => h.symm) k
  rwa [Option.map_id_apply, Option.map_id_apply] at hmap

end

end Dict

namespace Cluster

variable {a b : Stage} {c c₁ c₂ c₁₂ c₂₁ : Cluster} {ρ σ : String → String}

/-- What two stages do that are apart comes to the same in both orders, when what each of them does
comes to the same. -/
theorem contents_of_crossed (hapart : a.Apart b) (h₁ : SameOutside a c c₁)
    (h₁₂ : SameOutside b c₁ c₁₂) (h₂ : SameOutside b c c₂) (h₂₁ : SameOutside a c₂ c₂₁)
    (ha : Twins ρ a c₁ c₂₁) (hb : Twins σ b c₂ c₁₂) : c₁₂.contents = c₂₁.contents := by
  have hhome (k : ObjectKey) : b.AtHome k → ¬ a.AtHome k := hapart.not_atHome
  have htarget (k : ObjectKey) : b.AtTarget k → ¬ a.AtTarget k := hapart.not_atTarget
  have hname (n : String) : n = b.targetNamespace → ¬ n = a.targetNamespace := hapart.ne_target
  have hstages : c₁₂.stages.seen Stage.content = c₂₁.stages.seen Stage.content :=
    funext <| Dict.map_get?_of_crossed hhome h₁.stages h₁₂.stages h₂.stages h₂₁.stages ha.stages
      hb.stages (fun _ _ h => h.content) fun _ _ h => h.content
  have hstreams : c₁₂.imageStreams.seen unversioned = c₂₁.imageStreams.seen unversioned :=
    funext <| Dict.map_get?_of_crossed hhome h₁.imageStreams h₁₂.imageStreams h₂.imageStreams
      h₂₁.imageStreams ha.imageStreams hb.imageStreams
      (fun _ _ h => h ▸ Resource.unversioned_renamed _) fun _ _ h =>
        h ▸ Resource.unversioned_renamed _
  have hjobs : c₁₂.releaseJobs.seen unversioned = c₂₁.releaseJobs.seen unversioned :=
    funext <| Dict.map_get?_of_crossed hhome h₁.releaseJobs h₁₂.releaseJobs h₂.releaseJobs
      h₂₁.releaseJobs ha.releaseJobs hb.releaseJobs
      (fun _ _ h => h ▸ Resource.unversioned_renamed _) fun _ _ h =>
        h ▸ Resource.unversioned_renamed _
  have hroles : c₁₂.roles.seen unversioned = c₂₁.roles.seen unversioned :=
    funext <| Dict.map_get?_of_crossed htarget h₁.roles h₁₂.roles h₂.roles h₂₁.roles ha.roles
      hb.roles (fun _ _ h => h) fun _ _ h => h
  have hbindings : c₁₂.roleBindings.seen unversioned = c₂₁.roleBindings.seen unversioned :=
    funext <| Dict.map_get?_of_crossed htarget h₁.roleBindings h₁₂.roleBindings h₂.roleBindings
      h₂₁.roleBindings ha.roleBindings hb.roleBindings (fun _ _ h => h) fun _ _ h => h
  have hplaces : c₁₂.places = c₂₁.places := by
    rw [places, places]
    congr 1
    · exact Dict.eq_of_crossed hname h₁.namespaces h₁₂.namespaces h₂.namespaces h₂₁.namespaces
        ha.namespaces hb.namespaces
    · exact Dict.eq_of_crossed hname h₁.spaces h₁₂.spaces h₂.spaces h₂₁.spaces ha.spaces hb.spaces
    · exact Dict.eq_of_crossed hname h₁.projects h₁₂.projects h₂.projects h₂₁.projects ha.projects
        hb.projects
  rw [contents, contents, hstages, hstreams, hjobs, hroles, hbindings, hplaces, h₁₂.pipelines,
    h₁.pipelines, h₂₁.pipelines, h₂.pipelines, h₁₂.components, h₁.components, h₂₁.components,
    h₂.components]

end Cluster

/-! ### Both orders -/

namespace World

variable {w : World} {a b : Stage} {k l : ObjectKey}

/-- A reconcile of the stage at the key is answered alike in both worlds, with the same notices, and
notes the same writes of stages. -/
def SameOutcome (k : ObjectKey) (t t' : Timestamp) (w w' : World) : Prop :=
  ∃ r ns ws, w.answer t k = some r ∧ w'.answer t' k = some r ∧
    (w.apply (.reconcile t k)).observed.notices = w.observed.notices ++ ns ∧
    (w'.apply (.reconcile t' k)).observed.notices = w'.observed.notices ++ ns ∧
    (w.apply (.reconcile t k)).cluster.stageWrites = w.cluster.stageWrites ++ ws ∧
    (w'.apply (.reconcile t' k)).cluster.stageWrites = w'.cluster.stageWrites ++ ws

theorem answer_of_stored (hs : w.cluster.stages.get? k = some a) (t : Timestamp) :
    w.answer t k = some ((a.reconcile w.config t).run ObservedCluster.client w.observed).1 :=
  congrArg Prod.fst (ObservedCluster.reconcile_of_stored hs)

theorem observed_apply_of_stored (hs : w.cluster.stages.get? k = some a) (t : Timestamp) :
    (w.apply (.reconcile t k)).observed =
      ((a.reconcile w.config t).run ObservedCluster.client w.observed).2 :=
  congrArg Prod.snd (ObservedCluster.reconcile_of_stored hs)

theorem cluster_apply_of_stored (hs : w.cluster.stages.get? k = some a) (t : Timestamp) :
    (w.apply (.reconcile t k)).cluster =
      ((a.reconcile w.config t).run ObservedCluster.client w.observed).2.cluster :=
  congrArg ObservedCluster.cluster (observed_apply_of_stored hs t)

/-- A stage does not notice that the other one was reconciled before. -/
theorem sameOutcome_of_apart (hw : w.cluster.Reachable) (hquiet : w.observed.FailsWith NoFailure)
    (ha : w.cluster.stages.get? k = some a) (hb : w.cluster.stages.get? l = some b)
    (hapart : b.Apart a) (t t' u : Timestamp) :
    let afterB := w.apply (.reconcile u l)
    afterB.observed.FailsWith NoFailure ∧ SameOutside b w.cluster afterB.cluster ∧
      afterB.cluster.stages.get? k = some a ∧ SameOutcome k t t' w afterB ∧
      ∃ ρ, Twins ρ a (w.apply (.reconcile t k)).cluster
        (afterB.apply (.reconcile t' k)).cluster := by
  intro afterB
  obtain ⟨hquiet', -, -, houtside⟩ :=
    answer_of_ensures hquiet hb (Stage.ensures_reconcile_sameOutside w.config u b hw.coherent)
  have hkey : a.key = k := hw.coherent.stages k a ha
  have hstored : afterB.cluster.stages.get? k = some a :=
    (houtside.stages k (hapart.not_atHome (hkey ▸ rfl))).trans ha
  have hrevision : w.cluster.revision ≤ afterB.cluster.revision :=
    (leads_apply w (.reconcile u l)).renews.revision
  have hversion := HasGiven.putOff (hw.exists_version ha) afterB.cluster.revision
  obtain ⟨hresult, htwins, ⟨ns, hns, hns'⟩, ws, hws, hws'⟩ :=
    Stage.concur_reconcile (putOff_injective hrevision) hversion w.config t t' w.observed
      afterB.observed hquiet hquiet' (houtside.twins hapart hw)
  have hanswer := answer_of_stored ha t
  have hanswer' := answer_of_stored hstored t'
  have hobserved := observed_apply_of_stored ha t
  have hobserved' := observed_apply_of_stored hstored t'
  have hcluster := cluster_apply_of_stored ha t
  have hcluster' := cluster_apply_of_stored hstored t'
  refine ⟨hquiet', houtside, hstored, ⟨_, ns, ws, hanswer, ?_, ?_, ?_, ?_, ?_⟩,
    putOff w.cluster.revision afterB.cluster.revision, ?_⟩
  · exact hanswer'.trans (congrArg some hresult.eq.symm)
  · exact (congrArg ObservedCluster.notices hobserved).trans hns
  · exact (congrArg ObservedCluster.notices hobserved').trans hns'
  · rw [hcluster]
    exact hws
  · rw [hcluster']
    exact hws'
  · rw [hcluster, hcluster']
    exact htwins

/-- **Tenants do not notice each other.** Two stages of different namespaces and with different
targets are reconciled one after the other, where nothing is made to fail. Each has the same outcome
whether it comes first or second, and what is stored in the end is the same in both orders. -/
theorem tenants_apart (hw : w.cluster.Reachable) (hquiet : w.observed.FailsWith NoFailure)
    (ha : w.cluster.stages.get? k = some a) (hb : w.cluster.stages.get? l = some b)
    (hhome : a.namespaceName ≠ b.namespaceName) (htarget : a.targetNamespace ≠ b.targetNamespace)
    (t t' u u' : Timestamp) :
    let afterA := w.apply (.reconcile t k)
    let afterB := w.apply (.reconcile u l)
    let ab := afterA.apply (.reconcile u' l)
    let ba := afterB.apply (.reconcile t' k)
    SameOutcome k t t' w afterB ∧ SameOutcome l u u' w afterA ∧
      ab.cluster.contents = ba.cluster.contents ∧
      ab.cluster.stageWrites.Perm ba.cluster.stageWrites := by
  intro afterA afterB ab ba
  have hapart : a.Apart b := ⟨hhome, htarget⟩
  obtain ⟨hquietA, houtsideA, hstoredB, houtcomeB, σ, htwinsB⟩ :=
    sameOutcome_of_apart hw hquiet hb ha hapart u u' t
  obtain ⟨hquietB, houtsideB, hstoredA, houtcomeA, ρ, htwinsA⟩ :=
    sameOutcome_of_apart hw hquiet ha hb hapart.symm t t' u
  obtain ⟨-, -, -, houtsideAB⟩ := answer_of_ensures hquietA hstoredB
    (Stage.ensures_reconcile_sameOutside afterA.config u' b (reachable_apply hw _).coherent)
  obtain ⟨-, -, -, houtsideBA⟩ := answer_of_ensures hquietB hstoredA
    (Stage.ensures_reconcile_sameOutside afterB.config t' a (reachable_apply hw _).coherent)
  refine ⟨houtcomeA, houtcomeB, ?contents, ?writes⟩
  case contents =>
    exact contents_of_crossed hapart houtsideA houtsideAB houtsideB houtsideBA htwinsA htwinsB
  case writes =>
    obtain ⟨-, -, ws, -, -, -, -, hws, hws'⟩ := houtcomeA
    obtain ⟨-, -, vs, -, -, -, -, hvs, hvs'⟩ := houtcomeB
    rw [hws', hvs', hws, hvs, List.append_assoc, List.append_assoc]
    exact List.perm_append_comm.append_left _

open Sample in
/-- One stage is provisioned into the namespace of the other one, which is cleaned up. -/
theorem tenants_apart_of_neighbours :
    let w := ({} : World).run neighbours
    let other : ObjectKey := ⟨"edp-dev", "qa"⟩
    let afterDev := w.apply (.reconcile .epoch (key "dev"))
    let afterQa := w.apply (.reconcile .epoch other)
    let up := afterDev.apply (.reconcile .epoch other)
    let down := afterQa.apply (.reconcile .epoch (key "dev"))
    SameOutcome (key "dev") .epoch .epoch w afterQa ∧ SameOutcome other .epoch .epoch w afterDev ∧
      up.cluster.contents = down.cluster.contents ∧
      up.cluster.stageWrites.Perm down.cluster.stageWrites ∧
      w.cluster.stages.contains other = true ∧ up.cluster.stages.contains other = false ∧
      w.cluster.releaseJobs.contains (key "dev") = false ∧
      up.cluster.releaseJobs.contains (key "dev") = true := by
  intro w other afterDev afterQa up down
  have hquiet : w.observed.FailsWith NoFailure := by decide +kernel
  obtain ⟨a, ha, hafacts⟩ := (Option.any_eq_true
    (fun s => decide (s.namespaceName = "edp" ∧ s.targetNamespace = "edp-dev"))
    (w.cluster.stages.get? (key "dev"))).1 (by decide +kernel)
  obtain ⟨b, hb, hbfacts⟩ := (Option.any_eq_true
    (fun s => decide (s.namespaceName = "edp-dev" ∧ s.targetNamespace = "edp-dev-qa"))
    (w.cluster.stages.get? other)).1 (by decide +kernel)
  obtain ⟨hahome, hatarget⟩ := of_decide_eq_true hafacts
  obtain ⟨hbhome, hbtarget⟩ := of_decide_eq_true hbfacts
  obtain ⟨houtcome, houtcome', hcontents, hwrites⟩ := tenants_apart (w := w)
    (reachable_run neighbours) hquiet ha hb (by rw [hahome, hbhome]; decide)
    (by rw [hatarget, hbtarget]; decide) .epoch .epoch .epoch .epoch
  exact ⟨houtcome, houtcome', hcontents, hwrites, by decide +kernel⟩

end World

end Conveyor
