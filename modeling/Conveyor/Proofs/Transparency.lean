import Conveyor.Proofs.Exchanges
import Conveyor.Proofs.Provisioning
import Conveyor.Proofs.Retirement

/-!
Failures are passed on as they come. Nothing is known here of who answers: a client may answer
anything, and may go by all that it was asked before.

`p.PassesOn T` says how `p` takes failures. One that `T` tolerates is as good as an answer. Any
other ends the session on the spot, with a failure that nobody can tell from the first by asking
what it is about: the action that was under way is named in front of it, and no more. A session that
ends with a failure of its own has found that something is missing or that the configuration does
not allow for it. The judgment is a recursion over the session, so each way to put sessions together
has a rule, and what it means for a run with a client is said once, by `PassesOn.failsFast`.
-/

namespace Conveyor

namespace Error

/-- Failures that agree on all that is asked of a failure, whatever they say. -/
structure Alike (e e' : Error) : Prop where
  isNotFound : e'.isNotFound = e.isNotFound
  isAlreadyExists : e'.isAlreadyExists = e.isAlreadyExists
  isConflict : e'.isConflict = e.isConflict
  isRetryable : e'.isRetryable = e.isRetryable

theorem Alike.refl (e : Error) : e.Alike e := ⟨rfl, rfl, rfl, rfl⟩

theorem Alike.trans {e e' e'' : Error} (h : e.Alike e') (h' : e'.Alike e'') : e.Alike e'' :=
  ⟨h'.isNotFound.trans h.isNotFound, h'.isAlreadyExists.trans h.isAlreadyExists,
    h'.isConflict.trans h.isConflict, h'.isRetryable.trans h.isRetryable⟩

theorem alike_downstream (action kind name : String) (e : Error) :
    e.Alike (.downstream action kind name e) := ⟨rfl, rfl, rfl, rfl⟩

/-- What follows a failure is decided by what is asked of it. -/
theorem Alike.policy {e e' : Error} (h : e.Alike e') : e'.policy = e.policy := by
  rw [Error.policy, Error.policy, h.isConflict, h.isRetryable]

/-- The failures that the operator comes to by itself: something is missing, or the configuration is
wrong. -/
def IsFinding (e : Error) : Prop :=
  e.isNotFound = true ∨ ∃ resource message, e = .configuration resource message

/-- What is missing may come; what is wrong stays so. -/
theorem IsFinding.isRetryable {e : Error} (h : e.IsFinding) : e.isRetryable = e.isNotFound := by
  rcases h with h | ⟨resource, message, rfl⟩
  · rw [h]
    induction e with
    | notFound => rfl
    | downstream action kind name source ih => exact ih h
    | _ => cases h
  · rfl

end Error

namespace Session

variable {α β σ : Type} {T : Request → Error → Prop}

/-- All requests of a run with a client, with the failures they were answered with, in order. -/
def trace (client : Client σ) : Session α → σ → List Exchange
  | done _, _ => []
  | call r next, s =>
    .ofAnswer r (client.answer r s).1 ::
      (next (client.answer r s).1).trace client (client.answer r s).2
  | announce n next, s => next.trace client (client.publish n s)

/-- With the cluster in memory these are the exchanges of the run. -/
theorem trace_cluster (p : Session α) (c : Cluster) :
    p.trace Cluster.client c = p.exchanges c := by
  induction p generalizing c with
  | done result => rfl
  | call r next ih => exact congrArg _ (ih _ _)
  | announce n next ih => exact ih c

/-- After a failure that is not tolerated the session is at its end, with a failure alike; a failure
of its own is a finding. Nothing is announced. -/
def PassesOn (T : Request → Error → Prop) : Session α → Prop
  | done (.ok _) => True
  | done (.error e) => e.IsFinding
  | call r next =>
    (∀ a, (next (.ok a)).PassesOn T) ∧
      ∀ e, T r e ∧ (next (.error e)).PassesOn T ∨
        ¬ T r e ∧ ∃ e', next (.error e) = done (.error e') ∧ e.Alike e'
  | announce _ _ => False

/-- How a run takes failures: the first one that is not tolerated is the last thing that happens in
it and is told as it came, and without one the run can only fail by a finding. -/
structure FailsFast (T : Request → Error → Prop) (client : Client σ) (state : σ) (p : Session α) :
    Prop where
  stops : ∀ before x after e, p.trace client state = before ++ x :: after → x.failure = some e →
    ¬ T x.request e → after = [] ∧
      ∃ e', (p.run client state).1 = .error e' ∧ e.Alike e' ∧ e'.policy = e.policy
  finds : (∀ x ∈ p.trace client state, ∀ e, x.failure = some e → T x.request e) →
    ∀ e, (p.run client state).1 = .error e →
      (e.isNotFound = true ∨ ∃ resource message, e = .configuration resource message) ∧
        (e.isRetryable = true ↔ e.isNotFound = true)

/-- After a failure that is not tolerated there is no further request. -/
theorem PassesOn.stops {p : Session α} (h : p.PassesOn T) {client : Client σ} {state : σ}
    {before after : List Exchange} {x : Exchange} {e : Error}
    (htrace : p.trace client state = before ++ x :: after) (he : x.failure = some e)
    (hT : ¬ T x.request e) :
    after = [] ∧ ∃ e', (p.run client state).1 = .error e' ∧ e.Alike e' := by
  induction p generalizing state before with
  | done result => exact absurd htrace.symm (by simp [trace])
  | announce n next ih => exact h.elim
  | call r next ih =>
      obtain ⟨hok, herror⟩ := h
      rcases hanswer : client.answer r state with ⟨answer, state'⟩
      simp only [trace, run, hanswer] at htrace ⊢
      cases before with
      | cons y before =>
          have hrest : (next answer).trace client state' = before ++ x :: after :=
            (List.cons.inj htrace).2
          cases answer with
          | ok a => exact ih _ (hok a) hrest
          | error e₁ =>
              rcases herror e₁ with ⟨-, hnext⟩ | ⟨-, e', hnext, -⟩
              · exact ih _ hnext hrest
              · simp [hnext, trace] at hrest
      | nil =>
          obtain ⟨rfl, rfl⟩ := List.cons.inj htrace
          cases answer with
          | ok a => cases he
          | error e₁ =>
              obtain rfl : e₁ = e := Option.some.inj he
              rcases herror e₁ with ⟨htol, -⟩ | ⟨-, e', hnext, halike⟩
              · exact absurd htol hT
              · rw [hnext]
                exact ⟨rfl, e', rfl, halike⟩

/-- Without a failure that is not tolerated, only a finding can be the end. -/
theorem PassesOn.finds {p : Session α} (h : p.PassesOn T) {client : Client σ} {state : σ}
    (htol : ∀ x ∈ p.trace client state, ∀ e, x.failure = some e → T x.request e) {e : Error}
    (he : (p.run client state).1 = .error e) : e.IsFinding := by
  induction p generalizing state with
  | done result =>
      obtain rfl : result = .error e := he
      exact h
  | announce n next ih => exact h.elim
  | call r next ih =>
      obtain ⟨hok, herror⟩ := h
      rcases hanswer : client.answer r state with ⟨answer, state'⟩
      simp only [trace, run, hanswer] at htol he
      obtain ⟨hfirst, hrest⟩ := List.forall_mem_cons.1 htol
      cases answer with
      | ok a => exact ih _ (hok a) hrest he
      | error e₁ =>
          rcases herror e₁ with ⟨-, hnext⟩ | ⟨hT, -⟩
          · exact ih _ hnext hrest he
          · exact absurd (hfirst e₁ rfl) hT

theorem PassesOn.failsFast {p : Session α} (h : p.PassesOn T) (client : Client σ) (state : σ) :
    p.FailsFast T client state where
  stops before x after e htrace he hT := by
    obtain ⟨hend, e', hresult, halike⟩ := h.stops htrace he hT
    exact ⟨hend, e', hresult, halike, halike.policy⟩
  finds htol e he := by
    have hfinding := h.finds htol he
    exact ⟨hfinding, by rw [hfinding.isRetryable]⟩

/-! ### The rules -/

theorem passesOn_pure (a : α) : (pure a : Session α).PassesOn T := trivial

theorem passesOn_fail {e : Error} (h : e.IsFinding) : (fail e : Session α).PassesOn T := h

theorem passesOn_done {result : Except Error α} (h : ∀ e, result = .error e → e.IsFinding) :
    (done result).PassesOn T := by
  cases result with
  | ok a => trivial
  | error e => exact h e rfl

theorem passesOn_request {r : Request} (h : ∀ e, ¬ T r e) : (request r).PassesOn T :=
  ⟨fun _ => trivial, fun e => .inr ⟨h e, e, rfl, .refl e⟩⟩

theorem passesOn_requestFor {r : Request} (h : ∀ e, ¬ T r e) (action kind name : String) :
    (requestFor action kind name r).PassesOn T :=
  ⟨fun _ => trivial, fun e => .inr ⟨h e, _, rfl, Error.alike_downstream action kind name e⟩⟩

theorem PassesOn.bind {p : Session α} {f : α → Session β} (h : p.PassesOn T)
    (k : ∀ a, (f a).PassesOn T) : (p >>= f).PassesOn T := by
  induction p with
  | done result =>
      cases result with
      | ok a => exact k a
      | error e => exact h
  | announce n next ih => exact h.elim
  | call r next ih =>
      obtain ⟨hok, herror⟩ := h
      refine ⟨fun a => ih _ (hok a), fun e => (herror e).imp ?_ ?_⟩
      · exact fun ⟨htol, hnext⟩ => ⟨htol, ih _ hnext⟩
      · rintro ⟨hT, e', hnext, halike⟩
        exact ⟨hT, e', congrArg (· >>= f) hnext, halike⟩

theorem passesOn_ite {b : Prop} [Decidable b] {p q : Session α} (hp : p.PassesOn T)
    (hq : q.PassesOn T) : (if b then p else q).PassesOn T := by
  split
  · exact hp
  · exact hq

theorem passesOn_each {f : α → Session Unit} (h : ∀ a, (f a).PassesOn T) (as : List α) :
    (each as f).PassesOn T := by
  induction as with
  | nil => trivial
  | cons a as ih => exact (h a).bind fun _ => ih

/-- A request with tolerated failures. -/
theorem passesOn_tolerant {r : Request} {next : Except Error r.Response → Session Unit}
    {tolerable : Error → Bool} {action kind name : String}
    (hT : ∀ e, T r e ↔ tolerable e = true) (hok : ∀ a, next (.ok a) = pure ())
    (herror : ∀ e, next (.error e) =
      done (if tolerable e then .ok () else .error (.downstream action kind name e))) :
    (call r next).PassesOn T := by
  refine ⟨fun a => ?_, fun e => ?_⟩
  · rw [hok]
    trivial
  · rw [herror]
    by_cases he : tolerable e = true
    · rw [if_pos he]
      exact .inl ⟨(hT e).2 he, trivial⟩
    · rw [if_neg he]
      exact .inr ⟨fun h => he ((hT e).1 h), _, rfl, Error.alike_downstream action kind name e⟩

end Session

open Session

/-- The failures that the operations of a stage take for success: its target is there already, or is
gone already. -/
def Stage.Tolerates (s : Stage) : Request → Error → Prop
  | .createNamespace name, e | .createSpace name _, e | .createProject name _, e =>
    name = s.targetNamespace ∧ e.isAlreadyExists = true
  | .deleteNamespace name, e | .deleteProject name, e =>
    name = s.targetNamespace ∧ e.isNotFound = true
  | _, _ => False

variable {s : Stage}

namespace Target

theorem passesOn_require (s : Stage) : (require s).PassesOn s.Tolerates := by
  refine (passesOn_request fun _ => id).bind fun (found : Bool) => ?_
  exact passesOn_ite (passesOn_pure ()) (passesOn_fail (.inl rfl))

theorem passesOn_putNamespace (s : Stage) : (putNamespace s).PassesOn s.Tolerates :=
  passesOn_tolerant (fun _ => and_iff_right rfl) (fun _ => rfl) fun _ => rfl

theorem passesOn_putSpace (s : Stage) : (putSpace s).PassesOn s.Tolerates :=
  passesOn_tolerant (fun _ => and_iff_right rfl) (fun _ => rfl) fun _ => rfl

theorem passesOn_putProject (s : Stage) : (putProject s).PassesOn s.Tolerates :=
  passesOn_tolerant (fun _ => and_iff_right rfl) (fun _ => rfl) fun _ => rfl

theorem passesOn_deleteNamespace (s : Stage) : (deleteNamespace s).PassesOn s.Tolerates :=
  passesOn_tolerant (fun _ => and_iff_right rfl) (fun _ => rfl) fun _ => rfl

theorem passesOn_deleteProject (s : Stage) : (deleteProject s).PassesOn s.Tolerates :=
  passesOn_tolerant (fun _ => and_iff_right rfl) (fun _ => rfl) fun _ => rfl

/-- However the target comes into being. -/
theorem passesOn_placing (config : Config) (s : Stage) :
    (placing config s).PassesOn s.Tolerates :=
  passesOn_ite (passesOn_require s) (passesOn_ite (passesOn_putSpace s)
    (passesOn_ite (passesOn_putNamespace s) (passesOn_putProject s)))

/-- However the target goes. -/
theorem passesOn_removal (config : Config) (s : Stage) :
    (removal config s).PassesOn s.Tolerates :=
  passesOn_ite (passesOn_ite (passesOn_deleteNamespace s) (passesOn_deleteProject s))
    (passesOn_pure ())

end Target

namespace Access

theorem passesOn_configure (config : Config) (s : Stage) :
    (configure config s).PassesOn s.Tolerates := by
  refine PassesOn.bind ?_ fun _ => passesOn_each (fun binding => ?_) _
  · refine (passesOn_request fun _ => id).bind fun (found : Option Role) => ?_
    exact passesOn_ite (passesOn_pure ()) (passesOn_requestFor (fun _ => id) _ _ _)
  · refine (passesOn_request fun _ => id).bind fun (found : Option RoleBinding) => ?_
    exact passesOn_ite (passesOn_pure ()) (passesOn_requestFor (fun _ => id) _ _ _)

end Access

namespace Stage

theorem passesOn_siblings (s : Stage) (pipeline : String) :
    (s.siblings pipeline).PassesOn s.Tolerates :=
  (passesOn_request fun _ => id).bind fun _ => passesOn_pure _

theorem passesOn_predecessor (s : Stage) (pipeline : String) :
    (s.predecessor pipeline).PassesOn s.Tolerates := by
  refine (passesOn_siblings s pipeline).bind fun siblings => ?_
  split
  · exact passesOn_pure _
  · exact passesOn_fail (.inl rfl)

end Stage

namespace Promotion

theorem passesOn_pipelineOf (s : Stage) : (pipelineOf s).PassesOn s.Tolerates := by
  refine (passesOn_request fun _ => id).bind fun found => ?_
  split
  · exact passesOn_pure _
  · exact passesOn_fail (.inl rfl)

theorem passesOn_stream (s : Stage) (namespaceName name : String) :
    (stream namespaceName name).PassesOn s.Tolerates := by
  refine (passesOn_request fun _ => id).bind fun found => ?_
  split
  · exact passesOn_pure _
  · exact passesOn_fail (.inl rfl)

theorem passesOn_registryUrl (s : Stage) (namespaceName : String) :
    (registryUrl namespaceName).PassesOn s.Tolerates := by
  refine (passesOn_request fun _ => id).bind fun found => ?_
  split
  · exact passesOn_pure _
  · exact passesOn_fail (.inl rfl)

theorem passesOn_consumedFor (s : Stage) (p : Pipeline) (predecessor : Option Stage)
    (input : String) : (consumedFor s p predecessor input).PassesOn s.Tolerates := by
  refine (passesOn_stream s _ _).bind fun source => ?_
  cases predecessor with
  | none => exact passesOn_pure _
  | some q => exact (passesOn_stream s _ _).bind fun _ => passesOn_pure _

theorem passesOn_consumedForAll (s : Stage) (p : Pipeline) (predecessor : Option Stage)
    (inputs : List String) : (consumedForAll s p predecessor inputs).PassesOn s.Tolerates := by
  induction inputs with
  | nil => exact passesOn_pure _
  | cons input rest ih =>
      refine (passesOn_consumedFor s p predecessor input).bind fun _ => ?_
      exact ih.bind fun _ => passesOn_pure _

/-- Only a pipeline without inputs is a mistake in the configuration. -/
theorem isFinding_inputs {p : Pipeline} {e : Error} (h : inputs p = .error e) : e.IsFinding := by
  unfold inputs at h
  split at h
  · cases h
    exact .inr ⟨_, _, rfl⟩
  · cases h

theorem passesOn_consumed (s : Stage) (p : Pipeline) :
    (consumed s p).PassesOn s.Tolerates := by
  refine (passesOn_done fun _ => isFinding_inputs).bind fun names => ?_
  have hall (predecessor : Option Stage) := passesOn_consumedForAll s p predecessor names
  refine passesOn_ite ((passesOn_pure _).bind hall) ?_
  rw [← bind_pure_comp]
  exact ((s.passesOn_predecessor _).bind fun _ => passesOn_pure _).bind hall

theorem passesOn_putVerified (s : Stage) (namespaceName name : String) (spec : ImageStreamSpec) :
    (putVerified namespaceName name spec).PassesOn s.Tolerates := by
  refine (passesOn_request fun _ => id).bind fun found => ?_
  split
  · exact passesOn_ite (passesOn_pure ()) (passesOn_requestFor (fun _ => id) _ _ _)
  · exact passesOn_requestFor (fun _ => id) _ _ _

theorem passesOn_promote (s : Stage) : (promote s).PassesOn s.Tolerates := by
  refine (passesOn_pipelineOf s).bind fun p => (passesOn_consumed s p).bind fun cs => ?_
  refine (passesOn_registryUrl s _).bind fun registry => passesOn_each (fun c => ?_) cs
  exact passesOn_putVerified s _ _ _

end Promotion

theorem ReleaseJob.passesOn_put (s : Stage) : (put s).PassesOn s.Tolerates := by
  refine (Promotion.passesOn_pipelineOf s).bind fun p => ?_
  refine (passesOn_request fun _ => id).bind fun found => ?_
  split
  · exact passesOn_requestFor (fun _ => id) _ _ _
  · exact passesOn_ite (passesOn_pure ()) (passesOn_requestFor (fun _ => id) _ _ _)

theorem Retirement.passesOn_deleteEnvironmentLabels (s : Stage) :
    (deleteEnvironmentLabels s).PassesOn s.Tolerates := by
  refine (Promotion.passesOn_pipelineOf s).bind fun p => ?_
  refine (Promotion.passesOn_consumed s p).bind fun cs => passesOn_each (fun c => ?_) cs
  exact passesOn_ite (passesOn_requestFor (fun _ => id) _ _ _) (passesOn_pure ())

/-! ### The operations of a stage -/

theorem passesOn_provision (config : Config) (s : Stage) :
    (provision config s).PassesOn s.Tolerates := by
  rw [Target.provision_eq]
  refine (Target.passesOn_placing config s).bind fun _ => ?_
  refine (Access.passesOn_configure config s).bind fun _ => ?_
  exact (Promotion.passesOn_promote s).bind fun _ => ReleaseJob.passesOn_put s

theorem passesOn_deprovision (config : Config) (s : Stage) :
    (deprovision config s).PassesOn s.Tolerates := by
  rw [Target.deprovision_eq]
  exact (Retirement.passesOn_deleteEnvironmentLabels s).bind fun _ =>
    Target.passesOn_removal config s

namespace Stage

theorem passesOn_ensureFinalizer (s : Stage) : s.ensureFinalizer.PassesOn s.Tolerates := by
  unfold ensureFinalizer
  split
  · exact passesOn_pure _
  · exact (passesOn_request fun _ => id).bind fun _ => passesOn_pure _

theorem passesOn_releaseFinalizer (s : Stage) : s.releaseFinalizer.PassesOn s.Tolerates := by
  unfold releaseFinalizer
  split
  · exact passesOn_pure _
  · exact passesOn_request fun _ => id

/-- A stage that another controller has is a mistake in the configuration. -/
theorem isFinding_ownersWith {s : Stage} {owner : OwnerReference} {e : Error}
    (h : s.ownersWith owner = .error e) : e.IsFinding := by
  unfold ownersWith at h
  dsimp only at h
  split at h
  · cases h
    exact .inr ⟨_, _, rfl⟩
  · cases h

theorem passesOn_ensureOwnership (s : Stage) : s.ensureOwnership.PassesOn s.Tolerates := by
  refine (Promotion.passesOn_pipelineOf s).bind fun p => ?_
  refine passesOn_ite (passesOn_pure ()) ?_
  exact (passesOn_done fun _ => isFinding_ownersWith).bind fun _ => passesOn_request fun _ => id

theorem passesOn_provisionOwned (config : Config) (s : Stage) :
    (s.provisionOwned config).PassesOn s.Tolerates :=
  (passesOn_ensureOwnership s).bind fun _ => passesOn_provision config s

theorem passesOn_advanceDeletion (config : Config) (s : Stage) :
    (s.advanceDeletion config).PassesOn s.Tolerates := by
  refine (s.passesOn_siblings _).bind fun siblings => ?_
  refine passesOn_ite ?_ (passesOn_pure _)
  refine (passesOn_deprovision config s).bind fun _ => ?_
  exact s.passesOn_releaseFinalizer.bind fun _ => passesOn_pure _

/-- **Failures are passed on as they come.** Whatever answers the requests, and by whatever it goes:
in putting the finalizer on, in provisioning, in cleaning up and in advancing a deletion, the first
failure that is not tolerated ends the work at once and is told with nothing changed but the words,
so that what follows it is the same. Work that fails without one has found something missing, which
is worth another attempt, or a mistake in the configuration, which is not. -/
theorem work_fails_fast {σ : Type} (client : Client σ) (state : σ) (config : Config) (s : Stage) :
    s.ensureFinalizer.FailsFast s.Tolerates client state ∧
      (s.provisionOwned config).FailsFast s.Tolerates client state ∧
      (deprovision config s).FailsFast s.Tolerates client state ∧
      (s.advanceDeletion config).FailsFast s.Tolerates client state :=
  ⟨s.passesOn_ensureFinalizer.failsFast client state,
    (s.passesOn_provisionOwned config).failsFast client state,
    (passesOn_deprovision config s).failsFast client state,
    (s.passesOn_advanceDeletion config).failsFast client state⟩

end Stage

end Conveyor
