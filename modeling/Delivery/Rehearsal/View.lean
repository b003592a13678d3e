import Delivery.Context

/-!
What runners see of their contexts, as JSON.
-/

namespace Delivery

variable {σ : Type}

def ClusterClient.nameOrNull : Option (ClusterClient σ) → Json
  | none => .null
  | some client => .string client.name

def Grants.view (g : Grants σ) : Json :=
  .object [
    ("credentials", .bool g.credentials.isSome),
    ("empty", .bool g.isEmpty),
    ("primary", ClusterClient.nameOrNull g.primary),
    ("target", ClusterClient.nameOrNull g.target)]

def Permissions.view (p : Permissions) : Json :=
  .object [
    ("credentials", .bool p.credentials),
    ("primary", .bool p.primary),
    ("target", .bool p.target)]

namespace StepContext

def view (c : StepContext σ) : Payload :=
  .ofList [
    ("alias", .string c.stepAlias),
    ("project", .string c.project),
    ("stage", .string c.stage),
    ("promotion", .string c.promotion),
    ("ui_base_url", .string c.uiBaseUrl),
    ("work_dir", .string c.workDir),
    ("shared_state", Payload.toJson c.sharedState),
    ("config", Payload.toJson c.config),
    ("freight", .array (c.freight.map Payload.toJson)),
    ("grants", c.grants.view)]

def outline (c : StepContext σ) : Payload :=
  .ofList [
    ("alias", .string c.stepAlias),
    ("project", .string c.project),
    ("stage", .string c.stage),
    ("work_dir", .string c.workDir),
    ("shared_state", Payload.toJson c.sharedState),
    ("config", Payload.toJson c.config),
    ("credentials", .bool c.grants.credentials.isSome),
    ("primary", .bool c.grants.primary.isSome),
    ("target", .bool c.grants.target.isSome)]

end StepContext

namespace CheckContext

def view (c : CheckContext σ) : Payload :=
  .ofList [
    ("project", .string c.project),
    ("stage", .string c.stage),
    ("config", Payload.toJson c.config),
    ("grants", c.grants.view)]

def outline (c : CheckContext σ) : Payload :=
  .ofList [
    ("project", .string c.project),
    ("stage", .string c.stage),
    ("config", Payload.toJson c.config),
    ("credentials", .bool c.grants.credentials.isSome),
    ("primary", .bool c.grants.primary.isSome),
    ("target", .bool c.grants.target.isSome)]

end CheckContext
end Delivery
