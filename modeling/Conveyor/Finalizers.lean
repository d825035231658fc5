/-!
Finalizer lists. An object under deletion stays until its list is empty.
-/

namespace Conveyor.Finalizers

/-- The list with a finalizer at its end; nothing when it is there already. -/
def add? (current : Option (List String)) (finalizer : String) : Option (List String) :=
  let present := current.getD []
  if present.contains finalizer then none else some (present ++ [finalizer])

/-- The list without a finalizer; nothing when it is not there. -/
def remove? (current : Option (List String)) (finalizer : String) : Option (List String) :=
  let present := current.getD []
  if present.contains finalizer then some (present.filter (· ≠ finalizer)) else none

end Conveyor.Finalizers
