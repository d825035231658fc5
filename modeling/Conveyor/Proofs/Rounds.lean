import Conveyor.Proofs.Deletion
import Conveyor.Proofs.Scenario
import Mathlib.Data.Finset.Card
import Mathlib.Data.Finset.Max

/-!
Rounds over the stages of one pipeline. In a round each stage that is stored at its start is
reconciled once, in an order of the round's own; nothing else goes on, and nothing fails but for a
fault of its own. What a whole round comes to is argued with an invariant that speaks of the keys
that are still to come (`World.follow_keeps`), so that no order of them is any special one.
-/

namespace Conveyor

open Session

namespace Cluster

variable {c : Cluster} {home pipeline : String}

def memberKeys (home pipeline : String) (c : Cluster) : List ObjectKey :=
  (c.members home pipeline).map Stage.key

/-- The places that the stages of a pipeline take in its order. -/
def orders (home pipeline : String) (c : Cluster) : Finset Int :=
  ((c.members home pipeline).map (·.spec.order)).toFinset

theorem mem_orders {o : Int} :
    o ∈ c.orders home pipeline ↔ ∃ s ∈ c.members home pipeline, s.spec.order = o := by
  rw [orders, List.mem_toFinset, List.mem_map]

/-- No two stages of a pipeline have one key. -/
theorem Coherent.nodup_memberKeys (h : c.Coherent) : (c.memberKeys home pipeline).Nodup := by
  have hkeys : (c.stagesOf home).map Stage.key =
      (c.stages.toList.filter fun e => e.1.namespaceName = home).map (·.1) := by
    rw [stagesOf, List.map_map]
    refine List.map_congr_left fun e he => ?_
    exact h.stages e.1 e.2 (Dict.mem_toList.1 (List.mem_filter.1 he).1)
  have hnodup : (c.stages.toList.map (·.1)).Nodup := by
    refine List.pairwise_map.2 (c.stages.ascending.imp fun {a b} hab heq => ?_)
    exact KeyOrder.irrefl b.1 (heq ▸ hab)
  refine List.Nodup.sublist (List.filter_sublist.map Stage.key) ?_
  rw [hkeys]
  exact hnodup.sublist (List.filter_sublist.map _)

end Cluster

/-- Reconciles that are made one after the other, each at its time. -/
abbrev Schedule := List (Timestamp × ObjectKey)

namespace World

def follow (w : World) (r : Schedule) : World := w.run (r.map fun e => .reconcile e.1 e.2)

/-- The answers to the reconciles of a schedule. -/
def answers : World → Schedule → List (Option (Except Error Action))
  | _, [] => []
  | w, (now, key) :: r => w.answer now key :: (w.apply (.reconcile now key)).answers r

/-- In each round every stage of the pipeline that is there is reconciled once. -/
def InRounds (home pipeline : String) : World → List Schedule → Prop
  | _, [] => True
  | w, r :: rounds =>
    (r.map (·.2)).Perm (w.cluster.memberKeys home pipeline) ∧
      (w.follow r).InRounds home pipeline rounds

instance decidableInRounds (home pipeline : String) :
    ∀ (w : World) (rounds : List Schedule), Decidable (w.InRounds home pipeline rounds)
  | _, [] => isTrue trivial
  | w, r :: rounds =>
    have := decidableInRounds home pipeline (w.follow r) rounds
    inferInstanceAs (Decidable (_ ∧ _))

theorem follow_append (w : World) (r r' : Schedule) :
    w.follow (r ++ r') = (w.follow r).follow r' := by
  simp only [follow, run, List.map_append, List.foldl_append]

theorem answers_append (w : World) (r r' : Schedule) :
    w.answers (r ++ r') = w.answers r ++ (w.follow r).answers r' := by
  induction r generalizing w with
  | nil => rfl
  | cons e r ih => exact congrArg (_ :: ·) (ih _)

theorem inRounds_append {home pipeline : String} {w : World} {rounds rounds' : List Schedule} :
    w.InRounds home pipeline (rounds ++ rounds') ↔
      w.InRounds home pipeline rounds ∧
        (w.follow rounds.flatten).InRounds home pipeline rounds' := by
  induction rounds generalizing w with
  | nil => exact ⟨fun h => ⟨trivial, h⟩, fun h => h.2⟩
  | cons r rounds ih =>
      rw [List.cons_append, InRounds, InRounds, ih, List.flatten_cons, follow_append, and_assoc]

theorem reachable_follow {w : World} (h : w.cluster.Reachable) (r : Schedule) :
    (w.follow r).cluster.Reachable := reachable_run_of h _

/-- **The round rule.** The invariant `I` speaks of the keys that are still to come, and `A` of the
answers. -/
theorem follow_keeps {I : List ObjectKey → Cluster → Prop} {A : Except Error Action → Prop}
    {w : World} (hw : w.observed.FailsWith NoFailure)
    (reconcile : ∀ now k ks c, I (k :: ks) c → ∃ s, c.stages.get? k = some s ∧
      (s.reconcile w.config now).Ensures NoFailure c fun r c' => A r ∧ I ks c')
    {r : Schedule} (start : I (r.map (·.2)) w.cluster) :
    I [] (w.follow r).cluster ∧ (w.follow r).observed.FailsWith NoFailure ∧
      (w.follow r).config = w.config ∧ ∀ a ∈ w.answers r, ∃ x, a = some x ∧ A x := by
  induction r generalizing w with
  | nil => exact ⟨start, hw, rfl, fun _ ha => absurd ha List.not_mem_nil⟩
  | cons e r ih =>
      obtain ⟨now, key⟩ := e
      obtain ⟨s, hs, hreconcile⟩ := reconcile now key _ w.cluster start
      obtain ⟨hw', x, hx, hA, hI⟩ := answer_of_ensures hw hs hreconcile
      obtain ⟨hend, hquiet, hconfig, hanswers⟩ := ih hw' reconcile hI
      refine ⟨hend, hquiet, hconfig, List.forall_mem_cons.2 ⟨⟨x, hx, hA⟩, hanswers⟩⟩

end World

end Conveyor
