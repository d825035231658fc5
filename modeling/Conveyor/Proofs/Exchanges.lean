import Conveyor.Proofs.Faults
import Conveyor.Proofs.Reading

/-!
What a session asks for in one run, and what is refused to it.

The judgment `p.Takes c ws r c'` is about the run of `p` on the cluster `c`: it ends with the result
`r` in the cluster `c'`, and the requests of it that are more than look-ups were `ws`, with the
failures that they were answered with. Look-ups are not counted, so a part that has nothing to do
takes nothing, however much it looks up to find that out.
-/

namespace Conveyor

/-- A request with the failure that it was answered with, if it was. -/
structure Exchange where
  request : Request
  failure : Option Error
  deriving DecidableEq

def Exchange.ofAnswer (r : Request) : Except Error r.Response → Exchange
  | .ok _ => ⟨r, none⟩
  | .error e => ⟨r, some e⟩

@[simp] theorem Exchange.request_ofAnswer (r : Request) (a : Except Error r.Response) :
    (ofAnswer r a).request = r := by
  cases a <;> rfl

namespace Session

variable {α β : Type} {c c' c'' : Cluster} {ws ws' : List Exchange}

/-- All requests of a run in order. -/
def exchanges : Session α → Cluster → List Exchange
  | done _, _ => []
  | call r next, c =>
    .ofAnswer r (c.answer r).1 :: (next (c.answer r).1).exchanges (c.answer r).2
  | announce _ next, c => next.exchanges c

/-- The requests of a run that are more than look-ups. -/
def writes (p : Session α) (c : Cluster) : List Exchange :=
  (p.exchanges c).filter (!·.request.isRead)

theorem exchanges_andThen (p : Session α) (f : Except Error α → Session β) (c : Cluster) :
    (p.andThen f).exchanges c =
      p.exchanges c ++ (f (p.run Cluster.client c).1).exchanges (p.run Cluster.client c).2 := by
  induction p generalizing c with
  | done result => rfl
  | call r next ih =>
      simp only [andThen, exchanges, List.cons_append, List.cons.injEq, true_and]
      exact ih _ _
  | announce n next ih => exact ih c

theorem writes_andThen (p : Session α) (f : Except Error α → Session β) (c : Cluster) :
    (p.andThen f).writes c =
      p.writes c ++ (f (p.run Cluster.client c).1).writes (p.run Cluster.client c).2 := by
  rw [writes, exchanges_andThen, List.filter_append]
  rfl

/-- What is known of all requests of a session is known of those of a run. -/
theorem Asks.exchanges {P : Request → Prop} {p : Session α} (h : p.Asks P) :
    ∀ x ∈ p.exchanges c, P x.request := by
  induction p generalizing c with
  | done result => exact fun _ hx => absurd hx List.not_mem_nil
  | call r next ih =>
      refine List.forall_mem_cons.2 ⟨?_, ih _ (h.2 _)⟩
      rw [Exchange.request_ofAnswer]
      exact h.1
  | announce n next ih => exact ih h

/-- A run with its result and its writes. -/
structure Takes (p : Session α) (c : Cluster) (ws : List Exchange) (r : Except Error α)
    (c' : Cluster) : Prop where
  run : p.run Cluster.client c = (r, c')
  writes : p.writes c = ws

theorem takes_done (result : Except Error α) : (done result).Takes c [] result c := ⟨rfl, rfl⟩

theorem takes_pure (a : α) : (pure a : Session α).Takes c [] (.ok a) c := ⟨rfl, rfl⟩

theorem takes_publish_bind {n : Notice} {p : Session α} {r : Except Error α}
    (h : p.Takes c ws r c') : (publish n >>= fun _ => p).Takes c ws r c' := ⟨h.run, h.writes⟩

theorem Takes.andThen {p : Session α} {f : Except Error α → Session β} {r : Except Error α}
    {r' : Except Error β} (h : p.Takes c ws r c') (k : (f r).Takes c' ws' r' c'') :
    (p.andThen f).Takes c (ws ++ ws') r' c'' where
  run := by rw [run_andThen, h.run, k.run]
  writes := by rw [writes_andThen, h.run, h.writes, k.writes]

theorem Takes.bind {p : Session α} {f : α → Session β} {a : α} {r : Except Error β}
    (h : p.Takes c ws (.ok a) c') (k : (f a).Takes c' ws' r c'') :
    (p >>= f).Takes c (ws ++ ws') r c'' := Takes.andThen h k

theorem takes_if_pos {b : Prop} [Decidable b] (hb : b) {p q : Session α} {r : Except Error α}
    (h : p.Takes c ws r c') : (if b then p else q).Takes c ws r c' := by
  rw [if_pos hb]
  exact h

theorem takes_if_neg {b : Prop} [Decidable b] (hb : ¬ b) {p q : Session α} {r : Except Error α}
    (h : q.Takes c ws r c') : (if b then p else q).Takes c ws r c' := by
  rw [if_neg hb]
  exact h

theorem Takes.attempt {p : Session α} {r : Except Error α} (h : p.Takes c ws r c') :
    p.attempt.Takes c ws (.ok r) c' := by
  have h := Takes.andThen (f := fun r => done (.ok r)) h (takes_done _)
  rwa [List.append_nil] at h

/-- A write that no failure is pending for. -/
theorem takes_request_of_not_mem {r : Request} {a : Except Error r.Response}
    (hc : r.operation ∉ c.failures) (hr : r.isRead = false) (h : c.serve r = (a, c')) :
    (request r).Takes c [.ofAnswer r a] a c' where
  run := (Cluster.answer_of_not_mem hc).trans h
  writes := by
    have hanswer : c.answer r = (a, c') := (Cluster.answer_of_not_mem hc).trans h
    simp only [writes, request, exchanges, hanswer]
    refine List.filter_cons_of_pos ?_
    rw [Exchange.request_ofAnswer, hr]
    rfl

theorem takes_request {r : Request} {a : Except Error r.Response} (hc : c.failures = [])
    (hr : r.isRead = false) (h : c.serve r = (a, c')) :
    (request r).Takes c [.ofAnswer r a] a c' :=
  takes_request_of_not_mem (hc ▸ List.not_mem_nil) hr h

/-- A session of look-ups takes nothing and finds out what there is, when no failure is pending for
any of them. -/
theorem Reads.takes_of_asks {p : Session α} {f : Cluster → Except Error α} (hp : p.Reads f)
    (hc : p.Asks (·.operation ∉ c.failures)) : p.Takes c [] (f c) c where
  run := by
    -- With no failures to come, the only outcome is what the look-ups find.
    obtain ⟨⟨hcluster, hresult⟩, -⟩ := Cluster.run_of_asks hc (hp.ensures (fun _ => False) c)
    exact Prod.ext (hresult.resolve_right fun ⟨_, _, hno⟩ => hno) hcluster
  writes := by
    refine List.filter_eq_nil_iff.2 fun x hx => ?_
    rw [hp.asks.exchanges x hx]
    decide

theorem Reads.takes {p : Session α} {f : Cluster → Except Error α} (hp : p.Reads f)
    (hc : c.failures = []) : p.Takes c [] (f c) c :=
  hp.takes_of_asks ((asks_true p).mono fun _ _ => hc ▸ List.not_mem_nil)

/-- A session that begins with a look-up. -/
theorem Reads.takes_bind {p : Session α} {f : Cluster → Except Error α} {q : α → Session β} {a : α}
    {r : Except Error β} (hp : p.Reads f) (hc : c.failures = []) (ha : f c = .ok a)
    (k : (q a).Takes c ws r c') : (p >>= q).Takes c ws r c' :=
  (ha ▸ hp.takes hc).bind k

theorem takes_request_bind {r : Request} {f : r.Response → Session β} {a : r.Response}
    {r' : Except Error β} (hr : r.isRead = true) (hc : c.failures = [])
    (ha : (c.serve r).1 = .ok a) (k : (f a).Takes c ws r' c') :
    (request r >>= f).Takes c ws r' c' :=
  (reads_request hr).takes_bind hc ha k

/-- When nothing is to be done for any member, nothing is done for the list. -/
theorem takes_each {as : List α} {f : α → Session Unit}
    (h : ∀ a ∈ as, (f a).Takes c [] (.ok ()) c) : (each as f).Takes c [] (.ok ()) c := by
  induction as with
  | nil => exact takes_pure ()
  | cons a as ih =>
      obtain ⟨ha, has⟩ := List.forall_mem_cons.1 h
      rw [each_cons]
      exact ha.bind (ih has)

end Session

/-- The exchanges are about the requests that an observer of the cluster writes down. -/
theorem ObservedCluster.requests_run {α : Type} (p : Session α) {o : ObservedCluster}
    (ho : o.scripts = []) :
    (p.run client o).2.requests = o.requests ++ (p.exchanges o.cluster).map (·.request) := by
  induction p generalizing o with
  | done result => exact (List.append_nil _).symm
  | call r next ih =>
      let o' : ObservedCluster :=
        { o with cluster := (o.cluster.answer r).2, requests := o.requests ++ [r] }
      have hanswer : client.answer r o = ((o.cluster.answer r).1, o') := by
        simp only [client, answer, ho, FaultScript.next, o']
      simp only [Session.run, hanswer, Session.exchanges, List.map_cons, Exchange.request_ofAnswer]
      rw [ih _ (o := o') ho, List.append_assoc]
      rfl
  | announce n next ih => exact ih (o := o.publish n) ho

end Conveyor
