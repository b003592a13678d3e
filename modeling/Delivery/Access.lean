import Delivery.Cluster.Objects
import Delivery.Credentials

/-!
Privileged collaborators, and who may use them. A runner's context holds a collaborator exactly if the
runner's registration allows it and the engine has it.
-/

namespace Delivery

variable {σ : Type}

structure CredentialStore (σ : Type) where
  find : String → CredentialKind → String → σ → Option Credential

structure ClusterClient (σ : Type) where
  name : String
  get : ObjectKey → σ → Option Json
  patch : ObjectKey → Json → σ → Except String σ

structure Collaborators (σ : Type) where
  credentials : Option (CredentialStore σ) := none
  primary : Option (ClusterClient σ) := none
  target : Option (ClusterClient σ) := none

/-- The collaborators that a runner may use. All are denied unless they are allowed. -/
structure Permissions where
  credentials : Bool := false
  primary : Bool := false
  target : Bool := false
deriving DecidableEq, Repr, Inhabited

structure Grants (σ : Type) where
  credentials : Option (CredentialStore σ)
  primary : Option (ClusterClient σ)
  target : Option (ClusterClient σ)

namespace Permissions

def none : Permissions := {}

def all : Permissions := ⟨true, true, true⟩

def describe (p : Permissions) : String :=
  "Permissions \x7b allow_credentials_db: " ++ toString p.credentials ++ ", allow_primary_client: " ++
    toString p.primary ++ ", allow_target_client: " ++ toString p.target ++ " \x7d"

end Permissions

def describePresence (name : String) (credentials primary target : Bool) : String :=
  name ++ " \x7b credentials_db: " ++ toString credentials ++ ", primary_client: " ++
    toString primary ++ ", target_client: " ++ toString target ++ " \x7d"

def Collaborators.describe (c : Collaborators σ) : String :=
  describePresence "Collaborators" c.credentials.isSome c.primary.isSome c.target.isSome

namespace Grants

/-- The collaborators that are there and allowed. -/
def restrict (permissions : Permissions) (ambient : Collaborators σ) : Grants σ where
  credentials := ambient.credentials.filter fun _ => permissions.credentials
  primary := ambient.primary.filter fun _ => permissions.primary
  target := ambient.target.filter fun _ => permissions.target

def isEmpty (g : Grants σ) : Bool := g.credentials.isNone && g.primary.isNone && g.target.isNone

def describe (g : Grants σ) : String :=
  describePresence "Grants" g.credentials.isSome g.primary.isSome g.target.isSome

end Grants
end Delivery
