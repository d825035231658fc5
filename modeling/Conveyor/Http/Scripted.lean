import Conveyor.Http.Client

/-!
A cluster that replies by script: routes give their replies in order and stay with the last, and
what no route takes is granted if it is a write of an object and refused otherwise.
-/

namespace Conveyor.Http

inductive ScriptedReply where
  | fixed (reply : Reply)
  /-- The body of the message comes back. -/
  | echo (status : Nat)

/-- Replies to messages of a method and path. -/
structure Route where
  method : String
  path : String
  replies : List ScriptedReply

/-- What is left of the script, and the messages received so far. -/
structure ScriptedServer where
  routes : List Route := []
  received : List Message := []

namespace ScriptedServer

def bodyText (m : Message) : String :=
  match m.body with
  | some j => j.render
  | none => ""

def ScriptedReply.reply (m : Message) : ScriptedReply → Reply
  | .fixed reply => reply
  | .echo status => ⟨status, bodyText m⟩

/-- The next reply of the first route for a message, with the routes after it. -/
def nextReply (m : Message) : List Route → Option (Reply × List Route)
  | [] => none
  | route :: routes =>
    if route.method = m.method.name ∧ route.path = pathOf m.address then
      match route.replies with
      | [] => (nextReply m routes).map fun (r, rest) => (r, route :: rest)
      | [r] => some (ScriptedReply.reply m r, route :: routes)
      | r :: s :: replies =>
        some (ScriptedReply.reply m r, { route with replies := s :: replies } :: routes)
    else (nextReply m routes).map fun (r, rest) => (r, route :: rest)

/-- The reply to a message that no route takes. -/
def defaultReply (m : Message) : Reply :=
  match m.method with
  | .post => ⟨201, bodyText m⟩
  | .put => ⟨200, bodyText m⟩
  | .delete => ⟨200, (StatusObject.toJson "Success" "" "" 200).render⟩
  | .get | .patch => ⟨404, (StatusObject.toJson "Failure" "no route" "NotFound" 404).render⟩

def transport : Transport ScriptedServer := fun m s =>
  let s := { s with received := s.received ++ [m] }
  match nextReply m s.routes with
  | some (reply, routes) => (reply, { s with routes })
  | none => (defaultReply m, s)

end ScriptedServer

end Conveyor.Http
