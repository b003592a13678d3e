import Delivery.Cluster.Objects
import Delivery.Registry

/-!
Rehearsals: runs of an engine whose runners are scripted and whose collaborators live in memory. The
memory holds the collaborators' contents, and for each runner what it has seen, one entry a call; the
number of its entries is therefore the number of the call.
-/

namespace Delivery
namespace Rehearsal

structure Memory where
  credentials : CredentialTable := {}
  primary : ClusterObjects := {}
  target : ClusterObjects := {}
  seen : List (List Json) := []
deriving Inhabited

namespace Memory

def seenBy (m : Memory) (position : Nat) : List Json := m.seen[position]?.getD []

def see (m : Memory) (position : Nat) (view : Json) : Memory :=
  { m with seen := m.seen.modify position (· ++ [view]) }

end Memory

def note (position : Nat) (view : Json) : Behaviour Memory Nat :=
  .fetch fun m => .store (m.see position view) (.answer (m.seenBy position).length)

def credentialStore : CredentialStore Memory where
  find project kind name m := m.credentials.find? project kind name

def primaryClient (name : String) : ClusterClient Memory where
  name := name
  get key m := m.primary.get? key
  patch key patch m := (m.primary.patch key patch).map ({ m with primary := · })

def targetClient (name : String) : ClusterClient Memory where
  name := name
  get key m := m.target.get? key
  patch key patch m := (m.target.patch key patch).map ({ m with target := · })

end Rehearsal
end Delivery
