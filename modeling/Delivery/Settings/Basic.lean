import Delivery.Files.Path
import Delivery.Promotion.Record

/-!
The settings of the engine.
-/

namespace Delivery

/-- What holds for steps when neither they nor their runners say otherwise. -/
structure PromotionDefaults where
  errorThreshold : UInt32 := 1
  /-- The seconds that an attempt may take; zero sets no limit. -/
  stepTimeoutSecs : UInt64 := 0
deriving DecidableEq, Repr, Inhabited

namespace PromotionDefaults

def stepTimeout (d : PromotionDefaults) : Option Span :=
  (Span.ofSeconds d.stepTimeoutSecs.toNat).nonzero?

def codec : Codec PromotionDefaults :=
  .record "PromotionConfig"
    (.field (.defaulted "default_error_threshold" .word32 1)
      (.field (.defaulted "default_step_timeout_secs" .word64 0) .done))
    (fun (errorThreshold, stepTimeoutSecs, _) => { errorThreshold, stepTimeoutSecs })
    (fun d => (d.errorThreshold, d.stepTimeoutSecs, ()))

end PromotionDefaults

structure Settings where
  uiBaseUrl : String := ""
  workDirRoot : Option String := none
  promotion : PromotionDefaults := {}
deriving DecidableEq, Repr, Inhabited

inductive SettingsProblem where
  | zeroThreshold
  | emptyWorkDirRoot
deriving DecidableEq, Repr

def SettingsProblem.message : SettingsProblem → String
  | .zeroThreshold => "promotion.default_error_threshold must be > 0"
  | .emptyWorkDirRoot => "workdir_root must not be empty when set"

namespace Settings

def codec : Codec Settings :=
  .record "EngineConfig"
    (.field (.defaulted "ui_base_url" .text "")
      (.field (.optional "workdir_root" .path)
        (.field (.defaulted "promotion" PromotionDefaults.codec {}) .done)))
    (fun (uiBaseUrl, workDirRoot, promotion, _) => { uiBaseUrl, workDirRoot, promotion })
    (fun s => (s.uiBaseUrl, s.workDirRoot, s.promotion, ()))

def problem? (s : Settings) : Option SettingsProblem :=
  if s.promotion.errorThreshold = 0 then some .zeroThreshold
  else if s.workDirRoot = some "" then some .emptyWorkDirRoot
  else none

/-- The directory under which working directories are made: by default one in the directory for temporary
files. -/
def effectiveWorkDirRoot (s : Settings) (temporary : FilePath) : FilePath :=
  match s.workDirRoot with
  | some root => ⟨root⟩
  | none => temporary.join ⟨"promoter"⟩

end Settings
end Delivery
