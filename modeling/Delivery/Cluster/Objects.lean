import Delivery.Cluster.Patch

/-!
A cluster's objects, held in memory.
-/

namespace Delivery

structure ObjectKey where
  kind : String
  space : String
  name : String
deriving DecidableEq, Repr

structure ClusterObjects where
  entries : List (ObjectKey × Json) := []
deriving Inhabited

namespace ClusterObjects

def get? (c : ClusterObjects) (key : ObjectKey) : Option Json :=
  (c.entries.find? (·.1 = key)).map (·.2)

def insert (c : ClusterObjects) (key : ObjectKey) (object : Json) : ClusterObjects :=
  ⟨(key, object) :: c.entries.filter (·.1 ≠ key)⟩

def missing (key : ObjectKey) : String := s!"{key.kind} {key.space}/{key.name} not found"

def patch (c : ClusterObjects) (key : ObjectKey) (patch : Json) : Except String ClusterObjects :=
  match c.get? key with
  | some object => .ok (c.insert key (object.mergePatch patch))
  | none => .error (missing key)

end ClusterObjects
end Delivery
