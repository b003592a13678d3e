import Delivery.Health.Verdict
import Delivery.Promotion.Step
import Delivery.Status
import Delivery.Time.Reader

/-!
The bookkeeping of a promotion: what one attempt reports, what is kept of each step between two
invocations, what an invocation starts from and what it results in.
-/

namespace Delivery

def Instant.codec : Codec Instant where
  read _ d :=
    match d with
    | .string (some text) =>
      match Instant.ofText text with
      | .ok t => .ok t
      | .error refusal => .error (.mismatch (.refused refusal.message))
    | d => d.wrongType "an RFC 3339 formatted date and time string"
  write t := .string t.render

def Codec.path : Codec String := .string "path string"

structure StepResult where
  status : Status
  message : Option String := none
  output : Payload := {}
  /-- A check to run when the promotion is complete. -/
  healthCheck : Option Criterion := none
deriving Inhabited

namespace StepResult

def codec : Codec StepResult :=
  .record "PromotionStepResult"
    (.field (.required "status" Status.codec)
      (.field (.optional "message" .text)
        (.field (.defaulted "output" .payload {})
          (.field (.optional "healthCheck" Criterion.codec) .done))))
    (fun (status, message, output, healthCheck, _) => { status, message, output, healthCheck })
    (fun r => (r.status, r.message, r.output, r.healthCheck, ()))

end StepResult

structure StepRecord where
  stepAlias : String
  startedAt : Option Instant := none
  finishedAt : Option Instant := none
  errorCount : UInt32 := 0
  status : Option Status := none
  message : Option String := none
deriving DecidableEq, Repr, Inhabited

namespace StepRecord

def codec : Codec StepRecord :=
  .record "StepExecutionMetadata"
    (.field (.required "alias" .text)
      (.field (.optional "startedAt" Instant.codec)
        (.field (.optional "finishedAt" Instant.codec)
          (.field (.defaulted "errorCount" .word32 0)
            (.field (.optional "status" Status.codec) (.field (.optional "message" .text) .done))))))
    (fun (stepAlias, startedAt, finishedAt, errorCount, status, message, _) =>
      { stepAlias, startedAt, finishedAt, errorCount, status, message })
    (fun r => (r.stepAlias, r.startedAt, r.finishedAt, r.errorCount, r.status, r.message, ()))

end StepRecord

structure PromotionResult where
  status : Status
  message : Option String
  currentStep : Nat
  state : Payload
  records : List StepRecord
  /-- The checks that steps of this invocation ask for, in order. -/
  healthChecks : List Criterion
deriving Inhabited

namespace PromotionResult

def codec : Codec PromotionResult :=
  .record "PromotionResult"
    (.field (.required "status" Status.codec)
      (.field (.optional "message" .text)
        (.field (.required "currentStep" .position)
          (.field (.required "state" .payload)
            (.field (.required "stepExecutionMetadata" (.list StepRecord.codec))
              (.field (.listed "healthChecks" Criterion.codec) .done))))))
    (fun (status, message, currentStep, state, records, healthChecks, _) =>
      { status, message, currentStep, state, records, healthChecks })
    (fun r => (r.status, r.message, r.currentStep, r.state, r.records, r.healthChecks, ()))

end PromotionResult

structure PromotionRequest where
  project : String
  stage : String
  promotion : String
  workDir : Option String := none
  state : Payload := {}
  startFromStep : Nat := 0
  records : List StepRecord := []
  freight : List Payload := []
deriving Inhabited

namespace PromotionRequest

def codec : Codec PromotionRequest :=
  .record "PromotionContext"
    (.field (.required "project" .text)
      (.field (.required "stage" .text)
        (.field (.required "promotion" .text)
          (.field (.optional "workDir" .path)
            (.field (.defaulted "state" .payload {})
              (.field (.defaulted "startFromStep" .position 0)
                (.field (.defaulted "stepExecutionMetadata" (.list StepRecord.codec) [])
                  (.field (.defaulted "freight" (.list .payload) []) .done))))))))
    (fun (project, stage, promotion, workDir, state, startFromStep, records, freight, _) =>
      { project, stage, promotion, workDir, state, startFromStep, records, freight })
    (fun r => (r.project, r.stage, r.promotion, r.workDir, r.state, r.startFromStep, r.records,
      r.freight, ()))

def resumeFrom (request : PromotionRequest) (previous : PromotionResult) : PromotionRequest :=
  { request with
    state := previous.state
    startFromStep := previous.currentStep
    records := previous.records }

end PromotionRequest
end Delivery
