import Delivery.Json.Basic

/-!
Merge patches. A patch that is an object changes the members that it names: null removes one, an object is
merged into it, anything else replaces it. A patch that is no object replaces the whole value.
-/

namespace Delivery
namespace Json

/-- The members that a patch is merged into: those of an object, and none of any other value. -/
def membersOf : Json → List (String × Json)
  | .object members => members
  | _ => []

mutual

def mergePatch (target : Json) : Json → Json
  | .object patch => .object (mergeMembers target.membersOf patch)
  | patch => patch

def mergeMembers (members : List (String × Json)) : List (String × Json) → List (String × Json)
  | [] => members
  | (key, patch) :: rest =>
    let merged :=
      match patch with
      | .null => Entries.erase key members
      | patch => Entries.insert key (mergePatch ((Entries.get? key members).getD .null) patch) members
    mergeMembers merged rest

end

end Json
end Delivery
