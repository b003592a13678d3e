import Delivery.Registry
import Delivery.Settings.Basic

/-!
The engine: what it needs to run promotions and health checks.
-/

namespace Delivery

structure Engine (σ : Type) where
  registry : Registry σ
  collaborators : Collaborators σ := {}
  uiBaseUrl : String := ""
  workDirRoot : FilePath
  defaults : PromotionDefaults := {}

namespace Engine

def ofSettings {σ : Type} (registry : Registry σ) (collaborators : Collaborators σ)
    (settings : Settings) (temporary : FilePath) : Engine σ where
  registry := registry
  collaborators := collaborators
  uiBaseUrl := settings.uiBaseUrl
  workDirRoot := settings.effectiveWorkDirRoot temporary
  defaults := settings.promotion

end Engine
end Delivery
