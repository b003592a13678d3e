import Delivery.Engine
import Delivery.Promotion.Retry
import Delivery.Promotion.Setback

/-!
One attempt of a step: the runner is called once, within what is left of the step's time limit. The limit
counts from the start of the first attempt after the last failure, so that a step which suspends does not
get more time by suspending.
-/

namespace Delivery

variable {σ : Type}

structure Assignment (σ : Type) where
  step : Step
  record : StepRecord
  runner : StepRunner σ
  permissions : Permissions

inductive Conclusion where
  | reported (result : StepResult)
  | gaveUp (error : RunnerError)
  | timedOut (timeout : Span)

namespace Conclusion

def ofAnswer : Except RunnerError StepResult → Conclusion
  | .ok result => reported result
  | .error error => gaveUp error

/-- The result that a conclusion amounts to: a runner that gives up has errored, one that is too slow has
failed, and neither leaves an output. -/
def result (stepAlias : String) : Conclusion → StepResult
  | reported result => result
  | gaveUp error =>
    { status := .errored, message := some (Setback.runnerFailed stepAlias error).message }
  | timedOut timeout =>
    { status := .failed, message := some (Setback.timedOut stepAlias timeout).message }

end Conclusion

structure Attempt (σ : Type) where
  index : Nat
  context : StepContext σ
  began : Instant
  /-- The instant from which the time limit counts. -/
  windowStart : Instant
  timeout : Option Span
  threshold : UInt32
  /-- The runner was called: some of the time limit was left. -/
  invoked : Bool
  conclusion : Conclusion
  /-- The cause of the cancellation, if the promotion was cancelled when the attempt had ended. -/
  cause : Option Cause
  ended : Instant

namespace Attempt

def result (a : Attempt σ) : StepResult := a.conclusion.result a.context.stepAlias

def succeeded (a : Attempt σ) : Bool := a.result.status == .succeeded

end Attempt

namespace Assignment

def timeout (a : Assignment σ) (defaults : PromotionDefaults) : Option Span :=
  Retry.effectiveTimeout a.step.retry a.runner.defaultTimeout defaults.stepTimeout

def threshold (a : Assignment σ) (defaults : PromotionDefaults) : UInt32 :=
  Retry.effectiveThreshold a.step.retry a.runner.defaultThreshold defaults.errorThreshold

end Assignment

namespace StepRunner

/-- Calls a runner under a time limit of which some time has elapsed. It is not called if nothing is left
of the limit, and cut off when nothing is left. Tells whether it was called; nothing is returned if it
waits for ever. -/
def invoke (runner : StepRunner σ) (context : StepContext σ) (timeout : Option Span) (elapsed : Span)
    (w : World σ) : Option (Bool × Conclusion × World σ) :=
  match timeout with
  | none =>
    match (runner.run context).run none w with
    | (.answered answer, w) => some (true, .ofAnswer answer, w)
    | (.cutOff, _) => none
    | (.stuck, _) => none
  | some limit =>
    match Retry.remainingBudget limit elapsed with
    | none => some (false, .timedOut limit, w)
    | some left =>
      match (runner.run context).run (some (w.time + left.nanoseconds)) w with
      | (.answered answer, w) => some (true, .ofAnswer answer, w)
      | (.cutOff, w) => some (true, .timedOut limit, w)
      | (.stuck, _) => none

end StepRunner

namespace Engine

def attempt (e : Engine σ) (request : PromotionRequest) (workDir : String) (index : Nat)
    (state : Payload) (a : Assignment σ) (w : World σ) : Option (Attempt σ × World σ) := do
  let (began, w) := w.now
  let windowStart := a.record.startedAt.getD began
  let builder : ContextBuilder σ := ⟨e.collaborators, e.uiBaseUrl⟩
  let context := builder.step a.permissions request workDir a.step a.record.stepAlias state
  let timeout := a.timeout e.defaults
  let (invoked, conclusion, w) ← a.runner.invoke context timeout (began.since windowStart) w
  let cause := w.signal.cause
  let (ended, w) := w.now
  let threshold := a.threshold e.defaults
  return ({ index, context, began, windowStart, timeout, threshold, invoked, conclusion, cause, ended },
    w)

end Engine

/-! ### What follows from an attempt -/

inductive Move where
  | advance (record : StepRecord) (result : StepResult)
  | stop (status : Status) (message : Option String) (record : StepRecord)

namespace Attempt

def retryMessage (stepAlias : String) (result : StepResult) (errorCount threshold : UInt32) : String :=
  s!"step {Text.quoted stepAlias} {result.status.name} (attempt {errorCount} of {threshold}); " ++
    "will retry: " ++ result.message.getD "no message"

def enter (a : Attempt σ) (record : StepRecord) : Move :=
  let result := a.result
  let (verdict, record) := Retry.enter record result.status a.threshold
  let record := { record with message := result.message }
  match verdict with
  | .advance => .advance { record with finishedAt := some a.ended } result
  | .suspend => .stop .running result.message record
  | .retry errorCount threshold =>
    .stop .running (some (retryMessage record.stepAlias result errorCount threshold))
      { record with startedAt := none }
  | .abort status _ _ => .stop status result.message { record with finishedAt := some a.ended }

/-- What follows from an attempt of a step with a record. An attempt that did not succeed in a cancelled
promotion is not charged to the step. -/
def follow (a : Attempt σ) (record : StepRecord) : Move :=
  let record := { record with startedAt := some a.windowStart }
  match a.succeeded, a.cause with
  | false, some cause =>
    let message := some (Setback.canceled cause).message
    .stop .errored message { record with status := some .errored, message, finishedAt := some a.ended }
  | _, _ => a.enter record

end Attempt
end Delivery
