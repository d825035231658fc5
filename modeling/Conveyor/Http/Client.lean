import Conveyor.Http.Recorder

/-!
The client that talks to a cluster by messages. How a message gets its reply is left to a transport
with a state of its own.
-/

namespace Conveyor.Http

/-- Replies to messages. -/
abbrev Transport (σ : Type) := Message → σ → Reply × σ

/-- The transport's state and the events sent so far. -/
structure Connection (σ : Type) where
  state : σ
  recorder : Recorder := {}

namespace Connection

variable {σ : Type}

/-- A message that cannot be made is not sent. -/
def answer (transport : Transport σ) (r : Request) (c : Connection σ) :
    Except Error r.Response × Connection σ :=
  match requestMessage r with
  | .error f => (.error (failure r f), c)
  | .ok m =>
    let (reply, state) := transport m c.state
    ((answerOf r reply).mapError (failure r), { c with state })

/-- Sends the event of a notice, and keeps it if the cluster has taken it. -/
def publish (transport : Transport σ) (now : Timestamp) (n : Notice) (c : Connection σ) :
    Connection σ :=
  let event := c.recorder.eventFor now n
  match event.message now with
  | .error _ => c
  | .ok m =>
    let (reply, state) := transport m c.state
    match content EventObject.decode reply with
    | .error _ => { c with state }
    | .ok _ => { state, recorder := c.recorder.keep event n }

def client (transport : Transport σ) (now : Timestamp) : Client (Connection σ) :=
  ⟨answer transport, publish transport now⟩

end Connection

end Conveyor.Http
