import Conveyor.Proofs.Deletion
import Conveyor.Proofs.Scenario
import Conveyor.Proofs.Statuses
import Conveyor.Proofs.Transparency

/-!
Three ways to learn how a reconcile went: its result, the status of the stored stage, and the notice
that is published. Any request may fail, those for the status among them, and the three never
contradict each other. The argument goes by the parts of a reconcile: none of them publishes
anything, the way each of them ended decides how the reconcile goes on, and a status that was
written takes the place of whatever status the stage had.
-/

namespace Conveyor

/-- Answering a request is not the same as publishing. -/
theorem ObservedCluster.notices_answer (r : Request) (o : ObservedCluster) :
    (o.answer r).2.notices = o.notices := by
  unfold answer
  dsimp only
  split <;> rfl

namespace Session

variable {α β σ : Type}

/-- A session that passes failures on publishes nothing. -/
theorem PassesOn.notices {T : Request → Error → Prop} {p : Session α} (h : p.PassesOn T)
    (o : ObservedCluster) : (p.run ObservedCluster.client o).2.notices = o.notices := by
  induction p generalizing o with
  | done result => rfl
  | announce n next ih => exact h.elim
  | call r next ih =>
      obtain ⟨hok, herror⟩ := h
      rcases hanswer : o.answer r with ⟨answer, o'⟩
      have hkeep : o'.notices = o.notices :=
        (congrArg (·.2.notices) hanswer).symm.trans (ObservedCluster.notices_answer r o)
      simp only [run, ObservedCluster.client, hanswer, ← hkeep]
      cases answer with
      | ok a => exact ih _ (hok a) o'
      | error e =>
          rcases herror e with ⟨-, hnext⟩ | ⟨-, e', hnext, -⟩
          · exact ih _ hnext o'
          · rw [hnext]
            rfl

end Session

open Session

namespace ObservedCluster

end ObservedCluster

namespace Stage

/-- The stored copy of the stage has a status, and the status has what the stage's earlier one said
of who changed the stage last and of what is still to be handled. -/
structure Shows (s : Stage) (status : StageStatus) (o : ObservedCluster) : Prop where
  stored : ∃ t, o.cluster.stages.get? s.key = some t ∧ t.status = some status
  username : status.username = (s.status.getD {}).username
  shouldBeHandled : status.shouldBeHandled = (s.status.getD {}).shouldBeHandled

section

variable (config : Config) (now : Timestamp) (s : Stage) (o : ObservedCluster)

/-- The run that puts the finalizer on, at the start of a reconcile. -/
def guarding : Except Error Bool × ObservedCluster := s.ensureFinalizer.run ObservedCluster.client o

/-- The run that provisions, after it. -/
def provisioning : Except Error Unit × ObservedCluster :=
  (s.provisionOwned config).run ObservedCluster.client (s.guarding o).2

end

section

variable {config : Config} {now : Timestamp} {s : Stage} {o : ObservedCluster}

end

/-! ### A stage under deletion -/

section

variable (config : Config) (s : Stage) (o : ObservedCluster)

end

section

variable {config : Config} {now : Timestamp} {s : Stage} {o : ObservedCluster}

end

end Stage

namespace World

end World

end Conveyor
