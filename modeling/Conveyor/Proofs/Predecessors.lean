import Conveyor.Proofs.Convergence

/-!
Predecessors while the stages around change. A reconcile writes finalizers, owners and statuses,
and none of these count when a predecessor is looked for: only what a stage is known by does
(`Stage.identity`). As long as that stays the same at every key, the stages of a pipeline come in
the same order, and each of them finds the same predecessor as before, in its latest state.
-/

namespace Conveyor

/-- A map of the values keeps the order of the keys. -/
theorem Entries.get?_map {κ α β : Type} [KeyOrder κ] (f : α → β) (k : κ) (es : List (κ × α)) :
    get? k (es.map fun e => (e.1, f e.2)) = (get? k es).map f := by
  induction es with
  | nil => rfl
  | cons e es ih =>
      simp only [List.map_cons, get?, ih]
      split
      · rfl
      · split <;> rfl

/-- Dictionaries whose values look the same at every key list them in the same order. -/
theorem Dict.map_toList_eq {κ α β : Type} [KeyOrder κ] {d e : Dict κ α} {f : α → β}
    (h : ∀ k, (d.get? k).map f = (e.get? k).map f) :
    d.toList.map (fun x => (x.1, f x.2)) = e.toList.map fun x => (x.1, f x.2) := by
  refine Entries.eq_of_get? (List.pairwise_map.2 d.ascending) (List.pairwise_map.2 e.ascending)
    fun k => ?_
  rw [Entries.get?_map, Entries.get?_map]
  exact h k

namespace Stage

/-- What a stage is known by to the others. -/
def identity (s : Stage) : ObjectKey × Bool × String × StageSpec :=
  (s.key, s.isBeingDeleted, s.pipelineName, s.spec)

variable {s t : Stage}

theorem Like.identity (h : t.Like s) : t.identity = s.identity := by
  simp only [Stage.identity, h.key, h.isBeingDeleted, h.pipelineName, h.spec]

theorem key_of_identity (h : t.identity = s.identity) : t.key = s.key := congrArg (·.1) h

theorem home_of_identity (h : t.identity = s.identity) : t.namespaceName = s.namespaceName :=
  congrArg ObjectKey.namespaceName (key_of_identity h)

theorem isBeingDeleted_of_identity (h : t.identity = s.identity) :
    t.isBeingDeleted = s.isBeingDeleted := congrArg (·.2.1) h

theorem pipelineName_of_identity (h : t.identity = s.identity) :
    t.pipelineName = s.pipelineName := congrArg (·.2.2.1) h

theorem spec_of_identity (h : t.identity = s.identity) : t.spec = s.spec := congrArg (·.2.2.2) h

/-- The predecessor has the greatest order below, and it is the last one that has. -/
theorem previousOf_greatest {order : Int} {ss : List Stage} {q : Stage}
    (h : previousOf order ss = some q) :
    ∃ before after, ss = before ++ q :: after ∧ q.spec.order < order ∧
      (∀ b ∈ before, b.spec.order < order → b.spec.order ≤ q.spec.order) ∧
      ∀ b ∈ after, b.spec.order < order → b.spec.order < q.spec.order := by
  induction ss generalizing q with
  | nil => cases h
  | cons s ss ih =>
      rw [previousOf] at h
      cases hrest : previousOf order ss with
      | none =>
          simp only [hrest] at h
          split at h
          · next hlower =>
            cases h
            refine ⟨[], ss, rfl, hlower, fun b hb => absurd hb List.not_mem_nil, fun b hb hless => ?_⟩
            obtain ⟨p, hp⟩ := exists_previousOf hb hless
            cases hrest.symm.trans hp
          · cases h
      | some p =>
          obtain ⟨before, after, rfl, hlower, hbefore, hafter⟩ := ih hrest
          simp only [hrest] at h
          split at h
          · next hs =>
            cases h
            refine ⟨[], _, rfl, hs.2, fun b hb => absurd hb List.not_mem_nil, fun b hb hless => ?_⟩
            have hb : b.spec.order ≤ p.spec.order := by
              rcases List.mem_append.1 hb with hb | hb
              · exact hbefore b hb hless
              · rcases List.mem_cons.1 hb with rfl | hb
                · exact Int.le_refl _
                · exact Int.le_of_lt (hafter b hb hless)
            omega
          · next hs =>
            cases h
            refine ⟨s :: before, after, rfl, hlower, fun b hb hless => ?_, hafter⟩
            rcases List.mem_cons.1 hb with rfl | hb
            · omega
            · exact hbefore b hb hless

/-- The search for a predecessor looks at nothing else. -/
theorem previousOf_map_identity (order : Int) {ss ts : List Stage}
    (h : ss.map identity = ts.map identity) :
    (previousOf order ss).map identity = (previousOf order ts).map identity := by
  induction ss generalizing ts with
  | nil =>
      rw [List.map_eq_nil_iff.1 h.symm]
  | cons s ss ih =>
      obtain ⟨t, ts, rfl, hst, hrest⟩ := List.map_eq_cons_iff.1 h.symm
      have hspec : t.spec = s.spec := spec_of_identity hst
      have htail := ih hrest.symm
      rw [previousOf, previousOf]
      cases hs : previousOf order ss with
      | none =>
          rw [hs] at htail
          have ht : previousOf order ts = none := Option.map_eq_none_iff.1 htail.symm
          simp only [ht, hspec]
          split
          · exact congrArg some hst.symm
          · rfl
      | some p =>
          rw [hs] at htail
          obtain ⟨q, hq, hqp⟩ := Option.map_eq_some_iff.1 htail.symm
          have hspec' : q.spec = p.spec := spec_of_identity hqp
          simp only [hq, hspec, hspec']
          split
          · exact congrArg some hst.symm
          · exact congrArg some hqp.symm

end Stage

namespace Cluster

variable {config : Config} {home name : String} {c c' c'' : Cluster} {s t q : Stage}

/-- The stages of both clusters are known by the same. -/
def SameStages (c c' : Cluster) : Prop :=
  ∀ k, (c'.stages.get? k).map Stage.identity = (c.stages.get? k).map Stage.identity

namespace SameStages

theorem symm (h : c.SameStages c') : c'.SameStages c := fun k => (h k).symm

theorem trans (h : c.SameStages c') (k : c'.SameStages c'') : c.SameStages c'' := fun l =>
  (k l).trans (h l)

theorem members (h : c.SameStages c') :
    (c'.members home name).map Stage.identity = (c.members home name).map Stage.identity := by
  -- Whether a stage belongs to the pipeline is told by its key and its identity.
  have hmembers (d : Cluster) : (d.members home name).map Stage.identity =
      ((d.stages.toList.map fun e => (e.1, e.2.identity)).filter fun e =>
        e.2.2.2.1 = name && e.1.namespaceName = home).map (·.2) := by
    simp only [Cluster.members, stagesOf, List.filter_map, List.map_map, List.filter_filter,
      Function.comp_def]
    rfl
  rw [hmembers, hmembers, Dict.map_toList_eq h]

theorem exists_previousOf (h : c.SameStages c') {order : Int}
    (hq : Stage.previousOf order (c.members home name) = some q) :
    ∃ q', Stage.previousOf order (c'.members home name) = some q' ∧ q'.identity = q.identity := by
  have hmembers : (c'.members home name).map Stage.identity = _ := h.members
  have hsame := Stage.previousOf_map_identity order hmembers
  rw [hq] at hsame
  exact Option.map_eq_some_iff.1 hsame

theorem exists_member (h : c.SameStages c') (hs : s ∈ c.members home name) :
    ∃ s' ∈ c'.members home name, s'.identity = s.identity := by
  have hmem : s.identity ∈ (c'.members home name).map Stage.identity :=
    h.members ▸ List.mem_map_of_mem hs
  exact List.mem_map.1 hmem

end SameStages

/-- Nothing that a reconcile writes to its stage makes it known by anything else. -/
theorem Kept.sameStages (h : Kept config s c c') (hs : c.stages.get? s.key = some s) :
    c.SameStages c' := by
  intro k
  by_cases hk : k = s.key
  · subst hk
    obtain ⟨t, ht, hlike⟩ := h.stored ⟨s, hs, .refl s⟩
    rw [ht, hs]
    exact congrArg some hlike.identity
  · rw [h.others k hk]

end Cluster

end Conveyor
