import Conveyor.Cluster.Store
import Conveyor.Provision.Target

/-!
The reasoning kit for sessions on the cluster in memory.

A session is not run against the cluster alone: some of its requests may fail for no fault of its
own, and a property of the operator has to survive that. So the judgment of this file is about all
outcomes at once. `p.Ensures F c Q` says that `p`, started on the cluster `c`, ends with a result
and a cluster that satisfy `Q`, whichever of its requests fail on the way, each with an error from
`F`. A request that fails so leaves the cluster as it is. Without errors in `F` the judgment is
about the one run in which the cluster answers everything.

Each way to put sessions together has a rule. The loop rule `ensures_each` is the only one with
content: its invariant speaks of the members that are still to come.
-/

namespace Conveyor.Session

variable {α β : Type} {F : Error → Prop} {c : Cluster} {Q R : Except Error α → Cluster → Prop}
  {Q' : Except Error β → Cluster → Prop}

/-- Whichever requests fail, and with whichever of the errors `F`, the outcome satisfies `Q`. -/
def Ensures (F : Error → Prop) :
    Session α → Cluster → (Except Error α → Cluster → Prop) → Prop
  | done result, c, Q => Q result c
  | call r next, c, Q =>
    (∀ e, F e → (next (.error e)).Ensures F c Q) ∧
      (next (c.serve r).1).Ensures F (c.serve r).2 Q
  | announce _ next, c, Q => next.Ensures F c Q

/-- A failure is no result. -/
theorem error_ne_ok {e : Error} {a : α} : (.error e : Except Error α) ≠ .ok a := by
  intro h
  cases h

theorem ensures_request {r : Request} {Q : Except Error r.Response → Cluster → Prop} :
    (request r).Ensures F c Q ↔ (∀ e, F e → Q (.error e) c) ∧ Q (c.serve r).1 (c.serve r).2 :=
  Iff.rfl

@[simp] theorem ensures_publish {n : Notice} {Q : Except Error Unit → Cluster → Prop} :
    (publish n).Ensures F c Q ↔ Q (.ok ()) c := Iff.rfl

/-- What a session ensures may be weakened at any point of a proof. -/
theorem Ensures.mono {p : Session α} (h : p.Ensures F c Q) (hQ : ∀ r c', Q r c' → R r c') :
    p.Ensures F c R := by
  induction p generalizing c with
  | done result => exact hQ _ _ h
  | call r next ih =>
      obtain ⟨hfault, hserve⟩ := h
      exact ⟨fun e he => ih _ (hfault e he), ih _ hserve⟩
  | announce n next ih => exact ih h

/-- Fewer errors leave fewer outcomes. -/
theorem Ensures.fewer {G : Error → Prop} {p : Session α} (h : p.Ensures F c Q)
    (hG : ∀ e, G e → F e) : p.Ensures G c Q := by
  induction p generalizing c with
  | done result => exact h
  | call r next ih =>
      obtain ⟨hfault, hserve⟩ := h
      exact ⟨fun e he => ih _ (hfault e (hG e he)), ih _ hserve⟩
  | announce n next ih => exact ih h

theorem Ensures.and {p : Session α} (h : p.Ensures F c Q) (k : p.Ensures F c R) :
    p.Ensures F c fun r c' => Q r c' ∧ R r c' := by
  induction p generalizing c with
  | done result => exact ⟨h, k⟩
  | call r next ih =>
      obtain ⟨hfault, hserve⟩ := h
      obtain ⟨kfault, kserve⟩ := k
      exact ⟨fun e he => ih _ (hfault e he) (kfault e he), ih _ hserve kserve⟩
  | announce n next ih => exact ih h k

/-! ### Sequencing

All sequencing goes through `andThen`, which hands the result over whether it is a failure or not.
The rule for `>>=` has one premise for each of the two. -/

theorem ensures_andThen {p : Session α} {f : Except Error α → Session β} :
    (p.andThen f).Ensures F c Q' ↔ p.Ensures F c fun r c' => (f r).Ensures F c' Q' := by
  induction p generalizing c with
  | done result => rfl
  | call r next ih =>
      simp only [andThen, Ensures]
      exact and_congr (forall₂_congr fun e _ => ih _) (ih _)
  | announce n next ih => exact ih

theorem Ensures.bind {p : Session α} {f : α → Session β} (h : p.Ensures F c R)
    (ok : ∀ a c', R (.ok a) c' → (f a).Ensures F c' Q')
    (error : ∀ e c', R (.error e) c' → Q' (.error e) c') : (p >>= f).Ensures F c Q' := by
  refine ensures_andThen.2 (h.mono fun r c' hr => ?_)
  cases r with
  | ok a => exact ok a c' hr
  | error e => exact error e c' hr

/-- A request at the head of a session. -/
theorem ensures_request_bind {r : Request} {f : r.Response → Session β} :
    (request r >>= f).Ensures F c Q' ↔
      (∀ e, F e → Q' (.error e) c) ∧
        match c.serve r with
        | (.ok a, c') => (f a).Ensures F c' Q'
        | (.error e, c') => Q' (.error e) c' := by
  refine ensures_andThen.trans (ensures_request.trans (and_congr Iff.rfl ?_))
  rcases c.serve r with ⟨_ | a, c'⟩ <;> rfl

theorem ensures_ite {b : Prop} [Decidable b] {p q : Session α} (hp : b → p.Ensures F c Q)
    (hq : ¬ b → q.Ensures F c Q) : (if b then p else q).Ensures F c Q := by
  split
  · next h => exact hp h
  · next h => exact hq h

theorem ensures_attempt {p : Session α} {Q : Except Error (Except Error α) → Cluster → Prop} :
    p.attempt.Ensures F c Q ↔ p.Ensures F c fun r c' => Q (.ok r) c' :=
  ensures_andThen

/-- A session that looks at the outcome of an earlier part goes on from it in any case. -/
theorem ensures_attempt_bind {p : Session α} {f : Except Error α → Session β} :
    (p.attempt >>= f).Ensures F c Q' ↔ p.Ensures F c fun r c' => (f r).Ensures F c' Q' :=
  ensures_andThen.trans ensures_attempt

theorem ensures_mapError {f : Error → Error} {p : Session α} :
    (p.mapError f).Ensures F c Q ↔ p.Ensures F c fun r c' => Q (r.mapError f) c' := by
  refine ensures_andThen.trans
    ⟨fun h => h.mono fun r c' hr => ?_, fun h => h.mono fun r c' hr => ?_⟩
  all_goals cases r <;> exact hr

theorem ensures_requestFor {action kind name : String} {r : Request}
    {Q : Except Error r.Response → Cluster → Prop} :
    (requestFor action kind name r).Ensures F c Q ↔
      (∀ e, F e → Q (.error (.downstream action kind name e)) c) ∧
        Q ((c.serve r).1.mapError (.downstream action kind name)) (c.serve r).2 :=
  ensures_mapError

/-- A request of which it is known how the cluster answers. -/
theorem ensures_requestFor_of_served {action kind name : String} {r : Request} {a : r.Response}
    {c' : Cluster} {Q : Except Error r.Response → Cluster → Prop} (h : c.serve r = (.ok a, c')) :
    (requestFor action kind name r).Ensures F c Q ↔
      (∀ e, F e → Q (.error (.downstream action kind name e)) c) ∧ Q (.ok a) c' := by
  rw [ensures_requestFor, h]
  rfl

theorem each_nil (f : α → Session Unit) : each [] f = pure () := rfl

theorem each_cons (a : α) (as : List α) (f : α → Session Unit) :
    each (a :: as) f = f a >>= fun _ => each as f := rfl

theorem each_map (g : α → β) (f : β → Session Unit) (as : List α) :
    each (as.map g) f = each as fun a => f (g a) := by
  induction as with
  | nil => rfl
  | cons a as ih => rw [List.map_cons, each_cons, each_cons, ih]

/-- **The loop rule.** The invariant `I` speaks of the members still to come. The round of a member
either ends with the invariant for the rest, or fails with what is to be ensured. -/
theorem ensures_each {I : List α → Cluster → Prop} {f : α → Session Unit}
    {Q : Except Error Unit → Cluster → Prop}
    (round : ∀ a as c, I (a :: as) c →
      (f a).Ensures F c fun r c' => match r with
        | .ok () => I as c'
        | .error e => Q (.error e) c')
    (stop : ∀ c, I [] c → Q (.ok ()) c) {as : List α} (start : I as c) :
    (each as f).Ensures F c Q := by
  induction as generalizing c with
  | nil => exact stop c start
  | cons a as ih =>
      rw [each_cons]
      exact (round a as c start).bind (fun _ c' h => ih h) fun e c' h => h

/-! ### Requests that a session can make

Some properties need no look at answers. `p.Asks P` says that every request of `p` satisfies `P`,
whatever it is answered on the way. -/

def Asks (P : Request → Prop) : Session α → Prop
  | done _ => True
  | call r next => P r ∧ ∀ answer, (next answer).Asks P
  | announce _ next => next.Asks P

variable {P : Request → Prop}

@[simp] theorem asks_pure {a : α} : (pure a : Session α).Asks P := trivial

theorem asks_request {r : Request} (h : P r) : (request r).Asks P := ⟨h, fun _ => trivial⟩

theorem Asks.andThen {p : Session α} {f : Except Error α → Session β} (h : p.Asks P)
    (k : ∀ r, (f r).Asks P) : (p.andThen f).Asks P := by
  induction p with
  | done result => exact k result
  | call r next ih => exact ⟨h.1, fun answer => ih answer (h.2 answer)⟩
  | announce n next ih => exact ih h

theorem Asks.bind {p : Session α} {f : α → Session β} (h : p.Asks P) (k : ∀ a, (f a).Asks P) :
    (p >>= f).Asks P :=
  Asks.andThen h fun r => by
    cases r with
    | ok a => exact k a
    | error e => trivial

theorem asks_request_bind {r : Request} {f : r.Response → Session β} (h : P r)
    (k : ∀ a, (f a).Asks P) : (request r >>= f).Asks P := (asks_request h).bind k

theorem asks_publish_bind {n : Notice} {p : Session β} (h : p.Asks P) :
    (publish n >>= fun _ => p).Asks P := h

theorem asks_ite {b : Prop} [Decidable b] {p q : Session α} (hp : b → p.Asks P)
    (hq : ¬ b → q.Asks P) : (if b then p else q).Asks P := by
  split
  · next h => exact hp h
  · next h => exact hq h

theorem Asks.attempt {p : Session α} (h : p.Asks P) : p.attempt.Asks P := h.andThen fun _ => trivial

theorem Asks.mapError {f : Error → Error} {p : Session α} (h : p.Asks P) : (p.mapError f).Asks P :=
  h.andThen fun r => by cases r <;> trivial

theorem asks_requestFor {action kind name : String} {r : Request} (h : P r) :
    (requestFor action kind name r).Asks P := (asks_request h).mapError

theorem asks_each_of_mem {f : α → Session Unit} {as : List α} (h : ∀ a ∈ as, (f a).Asks P) :
    (each as f).Asks P := by
  induction as with
  | nil => trivial
  | cons a as ih =>
      obtain ⟨ha, has⟩ := List.forall_mem_cons.1 h
      exact ha.bind fun _ => ih has

theorem asks_each {f : α → Session Unit} (h : ∀ a, (f a).Asks P) (as : List α) :
    (each as f).Asks P := asks_each_of_mem fun a _ => h a

/-- Any session asks for something or other. -/
theorem asks_true (p : Session α) : p.Asks fun _ => True := by
  induction p with
  | done result => trivial
  | call r next ih => exact ⟨trivial, fun answer => ih answer⟩
  | announce n next ih => exact ih

theorem Asks.mono {P' : Request → Prop} {p : Session α} (h : p.Asks P) (hP : ∀ r, P r → P' r) :
    p.Asks P' := by
  induction p with
  | done result => trivial
  | call r next ih => exact ⟨hP r h.1, fun answer => ih answer (h.2 answer)⟩
  | announce n next ih => exact ih h

/-- What every request of a session keeps, the session keeps, whatever fails on the way. -/
theorem Asks.ensures {I : Cluster → Prop} {p : Session α} (h : p.Asks P)
    (keep : ∀ r c, P r → I c → I (c.serve r).2) (hc : I c) : p.Ensures F c fun _ c' => I c' := by
  induction p generalizing c with
  | done result => exact hc
  | call r next ih =>
      exact ⟨fun e _ => ih _ (h.2 _) hc, ih _ (h.2 _) (keep r c h.1 hc)⟩
  | announce n next ih => exact ih h hc

/-- Of any session nothing is ensured but that it ends. -/
theorem ensures_true (p : Session α) : p.Ensures F c fun _ _ => True :=
  (asks_true p).ensures (fun _ _ _ _ => trivial) trivial

/-! ### Runs -/

section

variable {σ : Type} {client : Client σ} {p : Session α} {f : α → Session β} {state : σ}

theorem run_bind_of_ok {a : α}
    (h : (p.run client state).1 = .ok a) :
    (p >>= f).run client state = (f a).run client (p.run client state).2 := by
  refine (run_andThen client p _ state).trans ?_
  rw [h]

theorem run_bind_of_error {e : Error}
    (h : (p.run client state).1 = .error e) :
    (p >>= f).run client state = (.error e, (p.run client state).2) := by
  refine (run_andThen client p _ state).trans ?_
  rw [h]
  rfl

end

end Conveyor.Session

/-! ### Tolerated failures -/

namespace Conveyor.Target

open Session

variable {tolerable : Error → Bool} {action kind name : String} {p : Session Unit}

theorem ensures_tolerate {F : Error → Prop} {c : Cluster} {Q : Except Error Unit → Cluster → Prop}
    (h : p.Ensures F c fun r c' => match r with
      | .ok () => Q (.ok ()) c'
      | .error e =>
        Q (if tolerable e then .ok () else .error (.downstream action kind name e)) c') :
    (tolerate tolerable action kind name p).Ensures F c Q := by
  refine ensures_andThen.2 (h.mono fun r c' hr => ?_)
  cases r <;> exact hr

theorem asks_tolerate {P : Request → Prop} (h : p.Asks P) :
    (tolerate tolerable action kind name p).Asks P :=
  h.andThen fun r => by cases r <;> trivial

end Conveyor.Target
