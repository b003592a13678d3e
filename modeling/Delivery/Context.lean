import Delivery.Access
import Delivery.Promotion.Record

/-!
What a runner is told: the context of a step and that of a health check.
-/

namespace Delivery

variable {σ : Type}

structure StepContext (σ : Type) where
  uiBaseUrl : String
  workDir : String
  /-- The shared state as it is before the step. -/
  sharedState : Payload
  stepAlias : String
  config : Payload
  project : String
  stage : String
  promotion : String
  freight : List Payload
  grants : Grants σ

structure CheckContext (σ : Type) where
  project : String
  stage : String
  config : Payload
  grants : Grants σ

structure ContextBuilder (σ : Type) where
  collaborators : Collaborators σ
  uiBaseUrl : String

namespace ContextBuilder

def step (b : ContextBuilder σ) (permissions : Permissions) (request : PromotionRequest)
    (workDir : String) (step : Step) (stepAlias : String) (sharedState : Payload) : StepContext σ where
  uiBaseUrl := b.uiBaseUrl
  workDir := workDir
  sharedState := sharedState
  stepAlias := stepAlias
  config := step.config
  project := request.project
  stage := request.stage
  promotion := request.promotion
  freight := request.freight
  grants := .restrict permissions b.collaborators

def check (b : ContextBuilder σ) (permissions : Permissions) (criterion : Criterion) :
    CheckContext σ where
  project := criterion.project
  stage := criterion.stage
  config := criterion.config
  grants := .restrict permissions b.collaborators

end ContextBuilder
end Delivery
