import Conveyor.Json.Basic

/-!
JSON merge patches: null removes a member, an object is merged member by member, and any other value
replaces what was there.
-/

namespace Conveyor.Json

mutual

/-- The value after the patch; a value that is no object counts as an empty one under an object
patch. -/
def mergePatch (target : Json) : Json → Json
  | object patch => object (mergeMembers target.members patch)
  | null => null
  | bool b => bool b
  | number n => number n
  | string s => string s
  | array xs => array xs

def mergeMembers (current : List (String × Json)) : List (String × Json) → List (String × Json)
  | [] => current
  | (k, v) :: patch =>
    let next :=
      if v.isNull then Entries.erase k current
      else Entries.insert k (mergePatch ((Entries.get? k current).getD null) v) current
    mergeMembers next patch

end

end Conveyor.Json
