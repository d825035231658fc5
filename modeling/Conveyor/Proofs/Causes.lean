import Conveyor.Proofs.Transparency

/-!
What is at the bottom of a failure. On its way up a failure is wrapped as often as somebody passes
it on (`Error.within`), and whatever is asked of it then is asked of its cause. So the answers are
read off the cause: the cause decides how the failure is classified, whether it is worth a retry,
and what the controller does next.

A refusal of the cluster is classified when it comes in (`Error.ofFault`). The three tests that are
made there exclude each other: one is about the code 404, and the other two share the code 409 out
by its reason, whatever that reason is.
-/

namespace Conveyor

namespace Fault

variable {f : Fault}

end Fault

namespace Error

/-- What is at the bottom of a failure. -/
def cause : Error → Error
  | downstream _ _ _ source => source.cause
  | e => e

variable {e : Error}

end Error

end Conveyor
