import Conveyor.Proofs.Scenario
import Mathlib.Logic.Relation

/-!
Versions over a run. A cluster moves on by arranging objects and by requests of anybody, and one
state of it leads to another by any number of moves. A version is never given out twice, not even
for a stage that was removed and made again, so a stage that is stored under the version of an
earlier copy still has the metadata and the specification of the copy. The status is another matter:
patching it gives the stage no new version.
-/

namespace Conveyor

namespace Cluster

/-- What can happen to a cluster next. A request may come from anybody, at any time, and it may be
made to fail. -/
inductive Moves : Cluster → Cluster → Prop where
  | insertStage (c : Cluster) (s : Stage) : Moves c (c.insertStage s)
  | insertPipeline (c : Cluster) (namespaceName : String) (p : Pipeline) :
      Moves c (c.insert pipelineShelf namespaceName p)
  | insertComponent (c : Cluster) (namespaceName : String) (o : Component) :
      Moves c (c.insert componentShelf namespaceName o)
  | insertImageStream (c : Cluster) (namespaceName : String) (s : ImageStream) :
      Moves c (c.insert imageStreamShelf namespaceName s)
  | insertRole (c : Cluster) (namespaceName : String) (r : Role) :
      Moves c (c.insert roleShelf namespaceName r)
  | insertNamespace (c : Cluster) (name : String) : Moves c (c.insertNamespace name)
  | failNext (c : Cluster) (o : Operation) : Moves c (c.failNext o)
  | answer (c : Cluster) (r : Request) : Moves c (c.answer r).2

/-- The cluster comes to be in the second state some time after it was in the first one. -/
abbrev Leads : Cluster → Cluster → Prop := Relation.ReflTransGen Moves

theorem Reachable.leads_empty {c : Cluster} (h : c.Reachable) : Leads {} c := by
  induction h with
  | empty => exact .refl
  | insertStage _ s ih => exact ih.tail (.insertStage _ s)
  | insertPipeline _ n p ih => exact ih.tail (.insertPipeline _ n p)
  | insertComponent _ n o ih => exact ih.tail (.insertComponent _ n o)
  | insertImageStream _ n s ih => exact ih.tail (.insertImageStream _ n s)
  | insertRole _ n r ih => exact ih.tail (.insertRole _ n r)
  | insertNamespace _ n ih => exact ih.tail (.insertNamespace _ n)
  | failNext _ o ih => exact ih.tail (.failNext _ o)
  | answer _ r ih => exact ih.tail (.answer _ r)

theorem Reachable.moves {c c' : Cluster} (h : c.Reachable) (k : c.Moves c') : c'.Reachable := by
  cases k with
  | insertStage s => exact h.insertStage s
  | insertPipeline n p => exact h.insertPipeline n p
  | insertComponent n o => exact h.insertComponent n o
  | insertImageStream n s => exact h.insertImageStream n s
  | insertRole n r => exact h.insertRole n r
  | insertNamespace n => exact h.insertNamespace n
  | failNext o => exact h.failNext o
  | answer r => exact h.answer r

theorem Reachable.leads {c c' : Cluster} (h : c.Reachable) (k : c.Leads c') : c'.Reachable := by
  induction k with
  | refl => exact h
  | tail _ hmove ih => exact ih.moves hmove

/-- The reachable clusters are those that the empty one leads to. -/
theorem reachable_iff_leads {c : Cluster} : c.Reachable ↔ Leads {} c :=
  ⟨Reachable.leads_empty, Reachable.empty.leads⟩

/-! ### What a move does to versions -/

theorem versionText_injective : Function.Injective versionText := by
  intro m n h
  have hdigits : Nat.toDigits 10 m = Nat.toDigits 10 n := String.ofList_injective h
  calc
    m = Nat.ofDigitChars 10 (Nat.toDigits 10 m) 0 := Nat.ofDigitChars_ten_toDigits.symm
    _ = Nat.ofDigitChars 10 (Nat.toDigits 10 n) 0 := by rw [hdigits]
    _ = n := Nat.ofDigitChars_ten_toDigits

/-- A stage that `c'` stores was stored in `c` already, the status aside, or it has a version that
was given out since. -/
structure Renews (c c' : Cluster) : Prop where
  revision : c.revision ≤ c'.revision
  stages : ∀ k t', c'.stages.get? k = some t' →
    (∃ t, c.stages.get? k = some t ∧ t'.metadata = t.metadata ∧ t'.spec = t.spec) ∨
      ∃ n, c.revision < n ∧ n ≤ c'.revision ∧ t'.metadata.resourceVersion = some (versionText n)

variable {c c' c'' : Cluster}

/-- A cluster with the same stages and a counter that has gone on. -/
theorem renews_of_stages_eq (hrevision : c.revision ≤ c'.revision) (h : c'.stages = c.stages) :
    c.Renews c' :=
  ⟨hrevision, fun _ t' ht' => .inl ⟨t', h ▸ ht', rfl, rfl⟩⟩

theorem Renews.refl (c : Cluster) : c.Renews c := renews_of_stages_eq (Nat.le_refl _) rfl

theorem Renews.trans (h : c.Renews c') (k : c'.Renews c'') : c.Renews c'' := by
  refine ⟨Nat.le_trans h.revision k.revision, fun key t'' ht'' => ?_⟩
  rcases k.stages key t'' ht'' with ⟨t', ht', hmeta', hspec'⟩ | ⟨n, hnew, hgiven, hversion⟩
  · rcases h.stages key t' ht' with ⟨t, ht, hmeta, hspec⟩ | ⟨n, hnew, hgiven, hversion⟩
    · exact .inl ⟨t, ht, hmeta'.trans hmeta, hspec'.trans hspec⟩
    · exact .inr ⟨n, hnew, Nat.le_trans hgiven k.revision, hmeta' ▸ hversion⟩
  · exact .inr ⟨n, Nat.lt_of_le_of_lt h.revision hnew, hgiven, hversion⟩

/-- A stage is written under the version that is next. -/
theorem renews_of_insert {key : ObjectKey} {t : Stage} (hrevision : c'.revision = c.revision + 1)
    (hversion : t.metadata.resourceVersion = some c.nextVersion)
    (h : c'.stages = c.stages.insert key t) : c.Renews c' := by
  refine ⟨hrevision ▸ Nat.le_succ _, fun k t' ht' => ?_⟩
  rw [h, Dict.get?_insert] at ht'
  split at ht'
  · cases ht'
    exact .inr ⟨c.revision + 1, Nat.lt_succ_self _, hrevision ▸ (Nat.le_refl _), hversion⟩
  · exact .inl ⟨t', ht', rfl, rfl⟩

theorem renews_patchStatus (key : ObjectKey) (status : StageStatus) (c : Cluster) :
    c.Renews (c.patchStatus key status).2 := by
  unfold patchStatus
  split
  · exact .refl c
  · next t ht =>
    split
    · exact .refl c
    · refine ⟨(Nat.le_refl _), fun k t' ht' => .inl ?_⟩
      simp only [writeStage, Dict.get?_insert] at ht'
      split at ht'
      · next hk =>
        cases ht'
        exact ⟨t, hk ▸ ht, rfl, rfl⟩
      · exact ⟨t', ht', rfl, rfl⟩

theorem renews_patchFinalizers (key : ObjectKey) (version : Option String)
    (finalizers : List String) (c : Cluster) :
    c.Renews (c.patchFinalizers key version finalizers).2 := by
  unfold patchFinalizers
  split
  · exact renews_of_stages_eq (Nat.le_succ _) rfl
  · split
    · split
      · refine ⟨Nat.le_succ _, fun k t' ht' => .inl ⟨t', ?_, rfl, rfl⟩⟩
        rw [Dict.get?_erase] at ht'
        split at ht'
        · cases ht'
        · exact ht'
      · exact renews_of_insert rfl rfl rfl
    · exact renews_of_stages_eq (Nat.le_succ _) rfl

theorem renews_patchOwnership (key : ObjectKey) (owners : List OwnerReference)
    (labels : Dict String String) (c : Cluster) :
    c.Renews (c.patchOwnership key owners labels).2 := by
  unfold patchOwnership
  split
  · exact renews_of_stages_eq (Nat.le_succ _) rfl
  · exact renews_of_insert rfl rfl rfl

section

variable {α : Type} [Resource α] {shelf : Shelf α}

/-- Objects of other types are stored beside the stages. -/
theorem renews_create (hset : ∀ os, c.Renews (shelf.set c.counted os)) (namespaceName : String)
    (a : α) : c.Renews (c.create shelf namespaceName a).2 := by
  rcases create_snd shelf namespaceName a c with h | h
  · exact h ▸ renews_of_stages_eq (Nat.le_succ _) rfl
  · exact h ▸ hset _

theorem renews_replace (hset : ∀ os, c.Renews (shelf.set c.counted os)) (namespaceName : String)
    (a : α) : c.Renews (c.replace shelf namespaceName a).2 := by
  rcases replace_snd shelf namespaceName a c with h | h
  · exact h ▸ renews_of_stages_eq (Nat.le_succ _) rfl
  · exact h ▸ hset _

end

theorem renews_serve (r : Request) (c : Cluster) : c.Renews (c.serve r).2 := by
  cases r with
  | patchStageStatus => exact renews_patchStatus ..
  | patchStageFinalizers => exact renews_patchFinalizers ..
  | patchStageOwnership => exact renews_patchOwnership ..
  | createImageStream | createReleaseJob | createRole | createRoleBinding =>
      exact renews_create (fun _ => renews_of_stages_eq (Nat.le_succ _) rfl) ..
  | replaceImageStream | replaceReleaseJob =>
      exact renews_replace (fun _ => renews_of_stages_eq (Nat.le_succ _) rfl) ..
  | createNamespace | deleteNamespace | createSpace | createProject | deleteProject =>
      simp only [serve, createNamespace, deleteNamespace, createSpace, createProject,
        deleteProject]
      split <;> exact renews_of_stages_eq (Nat.le_refl _) rfl
  | _ => exact .refl c

theorem renews_answer (r : Request) (c : Cluster) : c.Renews (c.answer r).2 := by
  by_cases hr : r.operation ∈ c.failures
  · rw [answer_of_mem hr]
    exact renews_of_stages_eq (Nat.le_refl _) rfl
  · rw [answer_of_not_mem hr]
    exact renews_serve r c

theorem Moves.renews (h : c.Moves c') : c.Renews c' := by
  cases h with
  | insertStage s => exact renews_of_insert rfl rfl rfl
  | insertPipeline | insertComponent | insertImageStream | insertRole =>
      exact renews_of_stages_eq (Nat.le_succ _) rfl
  | insertNamespace => exact renews_of_stages_eq (Nat.le_refl _) rfl
  | failNext o =>
      unfold Cluster.failNext
      split
      · exact .refl c
      · exact renews_of_stages_eq (Nat.le_refl _) rfl
  | answer r => exact renews_answer r c

/-- A whole run gives out new versions only. -/
theorem Leads.renews (h : c.Leads c') : c.Renews c' := by
  induction h with
  | refl => exact .refl c
  | tail _ hmove ih => exact ih.trans hmove.renews

/-! ### Copies -/

/-- Every stored stage has a version that was given out. -/
theorem Reachable.exists_version (h : c.Reachable) {key : ObjectKey} {s : Stage}
    (hs : c.stages.get? key = some s) :
    ∃ n, n ≤ c.revision ∧ s.metadata.resourceVersion = some (versionText n) := by
  rcases (reachable_iff_leads.1 h).renews.stages key s hs with ⟨t, ht, -⟩ | ⟨n, -, hn, hversion⟩
  · simp at ht
  · exact ⟨n, hn, hversion⟩

/-- The stage is a copy of what was stored under its key at some time. The stored stage may be
another one by now, but one of the copy's version differs from the copy in nothing but the status.
-/
structure Remembers (s : Stage) (c : Cluster) : Prop where
  version : s.metadata.resourceVersion.isSome = true
  current : ∀ t, c.stages.get? s.key = some t →
    t.metadata.resourceVersion = s.metadata.resourceVersion →
      t.metadata = s.metadata ∧ t.spec = s.spec

/-- Pending failures are no matter of versions. -/
theorem Remembers.calm {s : Stage} (h : c.Remembers s) : c.calm.Remembers s :=
  ⟨h.version, h.current⟩

/-- **A version stands for one state of a stage**, in all that comes after the copy was read. -/
theorem Leads.remembers (h : c.Leads c') (hc : c.Reachable) {key : ObjectKey} {s : Stage}
    (hs : c.stages.get? key = some s) : c'.Remembers s := by
  obtain ⟨m, hm, hversion⟩ := hc.exists_version hs
  refine ⟨by rw [hversion]; rfl, fun t ht hsame => ?_⟩
  rw [hc.coherent.stages key s hs] at ht
  rcases h.renews.stages key t ht with ⟨s', hs', hmeta, hspec⟩ | ⟨n, hnew, -, hn⟩
  · obtain rfl := Option.some.inj (hs.symm.trans hs')
    exact ⟨hmeta, hspec⟩
  · -- A version given out since the copy was read is none of those given out before.
    rw [hn, hversion] at hsame
    obtain rfl := versionText_injective (Option.some.inj hsame)
    omega

end Cluster

/-! ### Runs -/

namespace ObservedCluster

open Cluster

variable {α : Type}

theorem leads_answer (r : Request) (o : ObservedCluster) :
    o.cluster.Leads (o.answer r).2.cluster := by
  unfold answer
  dsimp only
  split
  · exact .refl
  · exact .single (.answer _ r)

/-- What a session does to a cluster is a sequence of moves. -/
theorem leads_run (p : Session α) (o : ObservedCluster) :
    o.cluster.Leads (p.run client o).2.cluster := by
  induction p generalizing o with
  | done result => exact .refl
  | call r next ih => exact (leads_answer r o).trans (ih _ _)
  | announce n next ih => exact ih (o.publish n)

theorem leads_reconcile (config : Config) (now : Timestamp) (key : ObjectKey)
    (o : ObservedCluster) : o.cluster.Leads (o.reconcile config now key).2.cluster := by
  cases hs : o.cluster.stages.get? key with
  | none => rw [reconcile_of_absent hs]
  | some s =>
      rw [reconcile_of_stored hs]
      exact leads_run _ o

end ObservedCluster

namespace World

theorem leads_apply (w : World) (step : Step) : w.cluster.Leads (w.apply step).cluster := by
  cases step with
  | insertStage s => exact .single (.insertStage _ s)
  | insertPipeline n p => exact .single (.insertPipeline _ n p)
  | insertComponent n o => exact .single (.insertComponent _ n o)
  | insertImageStream n s => exact .single (.insertImageStream _ n s)
  | insertRole n r => exact .single (.insertRole _ n r)
  | insertNamespace n => exact .single (.insertNamespace _ n)
  | markDeleting now key =>
      simp only [apply]
      split
      · exact .refl
      · exact .single (.insertStage _ _)
  | failNext o => exact .single (.failNext _ o)
  | script f => exact .refl
  | setConfig config => exact .refl
  | reconcile now key => exact w.observed.leads_reconcile w.config now key

theorem leads_run (w : World) (steps : List Step) : w.cluster.Leads (w.run steps).cluster := by
  induction steps generalizing w with
  | nil => exact .refl
  | cons step steps ih => exact (leads_apply w step).trans (ih _)

end World

end Conveyor
