import Delivery.Json.Record

/-!
Credentials for external systems, and a store of them.
-/

namespace Delivery

inductive CredentialKind where
  | git
  | helm
  | image
  | generic
deriving DecidableEq, Repr, Inhabited

namespace CredentialKind

def name : CredentialKind → String
  | git => "git"
  | helm => "helm"
  | image => "image"
  | generic => "generic"

def describe : CredentialKind → String
  | git => "Git"
  | helm => "Helm"
  | image => "Image"
  | generic => "Generic"

def variants : List (String × CredentialKind) :=
  [git, helm, image, generic].map fun k => (k.name, k)

def codec : Codec CredentialKind := .variant variants name

end CredentialKind

structure Credential where
  username : String
  password : String
deriving DecidableEq, Inhabited

namespace Credential

def codec : Codec Credential :=
  .record "Credential" (.field (.required "username" .text) (.field (.required "password" .text) .done))
    (fun (username, password, _) => { username, password })
    (fun c => (c.username, c.password, ()))

/-- A credential as diagnostics show it: never with its password. -/
def describe (c : Credential) : String :=
  "Credential \x7b username: " ++ Text.quoted c.username ++ ", password: \"<redacted>\" \x7d"

def describeFound : Option Credential → String
  | none => "None"
  | some c => "Some(" ++ c.describe ++ ")"

end Credential

structure CredentialTable where
  entries : List ((String × CredentialKind × String) × Credential) := []
deriving Inhabited

namespace CredentialTable

def insert (t : CredentialTable) (project : String) (kind : CredentialKind) (name : String)
    (credential : Credential) : CredentialTable :=
  ⟨((project, kind, name), credential) :: t.entries.filter (·.1 ≠ (project, kind, name))⟩

def find? (t : CredentialTable) (project : String) (kind : CredentialKind) (name : String) :
    Option Credential :=
  (t.entries.find? (·.1 = (project, kind, name))).map (·.2)

end CredentialTable
end Delivery
