import Conveyor.Cluster.Store
import Conveyor.Reconcile

/-!
The cluster in memory under observation: requests and notices are written down in order, and
requests can be made to fail by scripts before the cluster sees them.
-/

namespace Conveyor

/-- Lets requests of one operation fail: after `skip` of them, the next `times`. -/
structure FaultScript where
  operation : Operation
  error : Error
  skip : Nat
  times : Nat

namespace FaultScript

/-- The failure that the first script with something to say has for a request. Every script that
still skips has then skipped one more. -/
def next (o : Operation) : List FaultScript → Option Error × List FaultScript
  | [] => (none, [])
  | s :: rest =>
    if s.operation = o then
      match s.skip, s.times with
      | skip + 1, _ =>
        let (e, rest) := next o rest
        (e, { s with skip } :: rest)
      | 0, times + 1 => (some s.error, { s with times } :: rest)
      | 0, 0 =>
        let (e, rest) := next o rest
        (e, s :: rest)
    else
      let (e, rest) := next o rest
      (e, s :: rest)

end FaultScript

structure ObservedCluster where
  cluster : Cluster := {}
  scripts : List FaultScript := []
  requests : List Request := []
  notices : List Notice := []

namespace ObservedCluster

def answer (r : Request) (o : ObservedCluster) : Except Error r.Response × ObservedCluster :=
  let (fault, scripts) := FaultScript.next r.operation o.scripts
  let o := { o with scripts, requests := o.requests ++ [r] }
  match fault with
  | some e => (.error e, o)
  | none =>
    let (response, cluster) := o.cluster.answer r
    (response, { o with cluster })

def publish (n : Notice) (o : ObservedCluster) : ObservedCluster :=
  { o with notices := o.notices ++ [n] }

def client : Client ObservedCluster := ⟨answer, publish⟩

/-- Applies a change to the cluster itself. -/
def arrange (f : Cluster → Cluster) (o : ObservedCluster) : ObservedCluster :=
  { o with cluster := f o.cluster }

/-- Forgets the requests and notices so far. -/
def cleared (o : ObservedCluster) : ObservedCluster := { o with requests := [], notices := [] }

end ObservedCluster

end Conveyor
