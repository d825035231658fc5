import Conveyor.Proofs.Faults
import Conveyor.Proofs.Reading
import Conveyor.Reconcile

/-!
Sessions in which no failure is lost. Where such a session ends well, no request of it has failed
for no fault of its own, so what it ensures without failures is true of every success. All of the
operator's work on a live stage is of this kind, with two exceptions: the making of the target takes
some failures for success, so it is strict among the others only (`Target.strict_tolerate`), and the
report of a failure does not mind one of its own, but it is no success either.
-/

namespace Conveyor

namespace Session

variable {α β : Type} {F : Error → Prop}

/-- Among the errors `F` there is none that the session passes over: when it ends well, it ends as
it does when the cluster answers everything. -/
structure Strict (F : Error → Prop) (p : Session α) : Prop where
  ensures : ∀ {c : Cluster} {Q : Except Error α → Cluster → Prop}, p.Ensures NoFailure c Q →
    p.Ensures F c fun r c' => ∀ a, r = .ok a → Q (.ok a) c'

theorem strict_done (result : Except Error α) : (done result).Strict F where
  ensures h _ ha := ha ▸ h

theorem strict_pure (a : α) : (pure a : Session α).Strict F := strict_done _

theorem strict_request (r : Request) : (request r).Strict F := by
  refine ⟨fun h => ?_⟩
  obtain ⟨-, hserve⟩ := ensures_request.1 h
  exact ensures_request.2 ⟨fun e _ a ha => absurd ha error_ne_ok, fun a ha => ha ▸ hserve⟩

theorem Strict.bind {p : Session α} {f : α → Session β} (hp : p.Strict F)
    (hf : ∀ a, (f a).Strict F) : (p >>= f).Strict F := by
  refine ⟨fun h => ?_⟩
  refine (hp.ensures (ensures_andThen.1 h)).bind ?_ fun e c' _ b hb => absurd hb error_ne_ok
  intro a c' hrest
  exact (hf a).ensures (hrest a rfl)

theorem Strict.mapError {p : Session α} {f : Error → Error} (hp : p.Strict F) :
    (p.mapError f).Strict F := by
  refine ⟨fun h => ?_⟩
  refine ensures_mapError.2 ((hp.ensures (ensures_mapError.1 h)).mono ?_)
  rintro (e | a) c' hrest b hb
  · cases hb
  · cases hb
    exact hrest a rfl

theorem strict_requestFor (action kind name : String) (r : Request) :
    (requestFor action kind name r).Strict F := (strict_request r).mapError

/-- A request ends as it does without failures, or with one of them. -/
theorem ensures_request_or_fault {r : Request} {c : Cluster}
    {Q : Except Error r.Response → Cluster → Prop} (h : (request r).Ensures NoFailure c Q) :
    (request r).Ensures F c fun a c' => Q a c' ∨ ∃ e, a = .error e ∧ F e := by
  obtain ⟨-, hserve⟩ := ensures_request.1 h
  exact ensures_request.2 ⟨fun e he => .inr ⟨e, rfl, he⟩, .inl hserve⟩

theorem strict_ite {b : Prop} [Decidable b] {p q : Session α} (hp : p.Strict F)
    (hq : q.Strict F) : (if b then p else q).Strict F := by
  split
  · exact hp
  · exact hq

theorem strict_each {f : α → Session Unit} (h : ∀ a, (f a).Strict F) (as : List α) :
    (each as f).Strict F := by
  induction as with
  | nil => exact strict_pure ()
  | cons a as ih => exact (h a).bind fun _ => ih

/-- A session has some outcome, so what is ensured whatever the outcome holds. -/
theorem Ensures.const {p : Session α} {c : Cluster} {P : Prop}
    (h : p.Ensures F c fun _ _ => P) : P := by
  induction p generalizing c with
  | done result => exact h
  | call r next ih => exact ih _ h.2
  | announce n next ih => exact ih h

/-- A look-up that comes back with something has found it. -/
theorem Reads.strict {p : Session α} {f : Cluster → Except Error α} (h : p.Reads f) :
    p.Strict F := by
  refine ⟨fun {c Q} hQ => ?_⟩
  have hfound : Q (f c) c := by
    refine Ensures.const (p := p) (F := NoFailure) (c := c)
      ((hQ.and (h.ensures NoFailure c)).mono ?_)
    rintro r c' ⟨hr, rfl, rfl | ⟨e, -, hno⟩⟩
    · exact hr
    · exact hno.elim
  refine (h.ensures F c).mono ?_
  rintro r c' ⟨rfl, hr | ⟨e, rfl, -⟩⟩ a ha
  · rw [← ha, hr]
    exact hfound
  · cases ha

end Session

open Session

/-! ### The parts of a reconcile -/

variable {F : Error → Prop}

namespace Target

/-- What is tolerated is no failure, as long as the failures that come are not of that sort. -/
theorem strict_tolerate {tolerable : Error → Bool} {action kind name : String} {p : Session Unit}
    (hF : ∀ e, F e → tolerable e = false)
    (hp : ∀ {c : Cluster} {Q : Except Error Unit → Cluster → Prop}, p.Ensures NoFailure c Q →
      p.Ensures F c fun r c' => Q r c' ∨ ∃ e, r = .error e ∧ F e) :
    (tolerate tolerable action kind name p).Strict F := by
  refine ⟨fun h => ensures_tolerate ((hp (ensures_andThen.1 h)).mono ?_)⟩
  rintro r c' (hserved | ⟨e, rfl, he⟩)
  · cases r with
    | ok u => exact fun _ _ => hserved
    | error e =>
        intro u hu
        exact hu ▸ hserved
  · intro u hu
    rw [hF e he] at hu
    cases hu

theorem strict_require (s : Stage) : (require s).Strict F := by
  refine (strict_request _).bind fun found => ?_
  split
  · exact strict_pure ()
  · exact strict_done _

end Target

namespace Access

theorem strict_ensureRole (role : Role) : (ensureRole role).Strict F :=
  (strict_request _).bind fun _ => strict_ite (strict_pure ()) (strict_requestFor ..)

theorem strict_ensureBinding (binding : RoleBinding) : (ensureBinding binding).Strict F :=
  (strict_request _).bind fun _ => strict_ite (strict_pure ()) (strict_requestFor ..)

theorem strict_configure (config : Config) (s : Stage) : (configure config s).Strict F :=
  (strict_ensureRole _).bind fun _ => strict_each strict_ensureBinding _

end Access

namespace Promotion

theorem strict_putVerified (namespaceName name : String) (spec : ImageStreamSpec) :
    (putVerified namespaceName name spec).Strict F := by
  refine (strict_request _).bind fun found => ?_
  split
  · exact strict_ite (strict_pure ()) (strict_requestFor ..)
  · exact strict_requestFor ..

theorem strict_promote (s : Stage) : (promote s).Strict F :=
  (reads_pipelineOf s).strict.bind fun pipeline => (reads_consumed s pipeline).strict.bind fun cs =>
    (reads_registryUrl s.namespaceName).strict.bind fun _ =>
      strict_each (fun _ => strict_putVerified ..) cs

end Promotion

theorem ReleaseJob.strict_put (s : Stage) : (put s).Strict F := by
  refine (Promotion.reads_pipelineOf s).strict.bind fun pipeline => ?_
  refine (strict_request _).bind fun found => ?_
  split
  · exact strict_requestFor ..
  · exact strict_ite (strict_pure ()) (strict_requestFor ..)

namespace Stage

theorem strict_ensureFinalizer (s : Stage) : s.ensureFinalizer.Strict F := by
  unfold ensureFinalizer
  split
  · exact strict_pure false
  · exact (strict_request _).bind fun _ => strict_pure true

end Stage

end Conveyor
