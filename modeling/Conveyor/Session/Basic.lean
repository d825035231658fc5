import Conveyor.Notice
import Conveyor.Session.Request

/-!
Sessions with a cluster: programs that make requests, go on by their answers, publish notices, and
end with a value or a failure. A session says nothing about who answers, so that it can be run
against any client, and its requests can be looked at one by one.
-/

namespace Conveyor

inductive Session (α : Type) : Type where
  | done (result : Except Error α)
  | call (request : Request) (next : Except Error request.Response → Session α)
  | announce (notice : Notice) (next : Session α)

namespace Session

variable {α β γ : Type}

/-- Goes on from the end of a session, successful or not. -/
def andThen : Session α → (Except Error α → Session β) → Session β
  | done result, f => f result
  | call request next, f => call request fun answer => (next answer).andThen f
  | announce notice next, f => announce notice (next.andThen f)

/-- Goes on from a value; a failure ends the session. -/
def bind (s : Session α) (f : α → Session β) : Session β :=
  s.andThen fun
    | .ok a => f a
    | .error e => done (.error e)

instance : Monad Session where
  pure a := done (.ok a)
  bind := bind

def fail (e : Error) : Session α := done (.error e)

/-- One request, whose failure is that of the session. -/
def request (r : Request) : Session r.Response := call r done

def publish (notice : Notice) : Session Unit := announce notice (done (.ok ()))

/-- The same session with its outcome as a value. -/
def attempt (s : Session α) : Session (Except Error α) := s.andThen fun result => done (.ok result)

/-- The same session with a failure seen in another way. -/
def mapError (f : Error → Error) (s : Session α) : Session α :=
  s.andThen fun
    | .ok a => done (.ok a)
    | .error e => done (.error (f e))

/-- One request with its failure told as one of an action on an object. -/
def requestFor (action kind name : String) (r : Request) : Session r.Response :=
  (request r).mapError (.downstream action kind name)

/-- The sessions of a list's members one after the other, up to the first failure. -/
def each (as : List α) (f : α → Session Unit) : Session Unit :=
  match as with
  | [] => done (.ok ())
  | a :: as => (f a).bind fun _ => each as f

theorem andThen_done (s : Session α) : s.andThen done = s := by
  induction s with
  | done result => rfl
  | call request next ih => simp only [andThen, ih]
  | announce notice next ih => simp only [andThen, ih]

theorem andThen_assoc (s : Session α) (f : Except Error α → Session β)
    (g : Except Error β → Session γ) :
    (s.andThen f).andThen g = s.andThen fun r => (f r).andThen g := by
  induction s with
  | done result => rfl
  | call request next ih => simp only [andThen, ih]
  | announce notice next ih => simp only [andThen, ih]

instance : LawfulMonad Session :=
  LawfulMonad.mk' Session
    (fun s => by
      refine Eq.trans (congrArg s.andThen (funext fun r => ?_)) (andThen_done s)
      cases r <;> rfl)
    (fun _ _ => rfl)
    (fun s f g => by
      refine (andThen_assoc s _ _).trans (congrArg s.andThen (funext fun r => ?_))
      cases r <;> rfl)

end Session

/-- One who answers requests and takes notices, with a state of its own. -/
structure Client (σ : Type) where
  answer : (r : Request) → σ → Except Error r.Response × σ
  publish : Notice → σ → σ

namespace Session

variable {α β σ : Type}

/-- The outcome of a session with a client, and the client's state after it. -/
def run (client : Client σ) : Session α → σ → Except Error α × σ
  | done result, s => (result, s)
  | call request next, s =>
    let (answer, s) := client.answer request s
    (next answer).run client s
  | announce notice next, s => next.run client (client.publish notice s)

@[simp] theorem run_done (client : Client σ) (result : Except Error α) (s : σ) :
    (done result).run client s = (result, s) := rfl

theorem run_andThen (client : Client σ) (p : Session α) (f : Except Error α → Session β) (s : σ) :
    (p.andThen f).run client s = (f (p.run client s).1).run client (p.run client s).2 := by
  induction p generalizing s with
  | done result => rfl
  | call request next ih => exact ih _ _
  | announce notice next ih => exact ih _

end Session

end Conveyor
