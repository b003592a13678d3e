import Delivery.Promotion.Alias
import Delivery.Rehearsal.Memory
import Delivery.Rehearsal.View

/-!
Mock runners, which play a script and note the contexts in which they are called, and a stand-in for a
whole engine.
-/

namespace Delivery
namespace Rehearsal

inductive Line where
  | report (result : StepResult)
  | fail (reason : String)
  | sleep (length : Span)
  /-- Cancels the run, then succeeds. -/
  | cancel
  | awaitCancel

namespace Line

def play : Line → Behaviour Memory (Except RunnerError StepResult)
  | report result => .answer (.ok result)
  | fail reason => .answer (.error ⟨[reason]⟩)
  | sleep length => .sleep length (.answer (.ok { status := .succeeded }))
  | cancel => .cancel .canceled (.answer (.ok { status := .succeeded }))
  | awaitCancel => .awaitCancel fun cause => .answer (.error ⟨[cause.message]⟩)

end Line

/-- The step runner at a position that plays its script, one line a call; after the last line it reports
a status. -/
def mock (position : Nat) (script : List Line) (fallback : Status) (defaultTimeout : Option Span)
    (defaultThreshold : UInt32) : StepRunner Memory where
  run context := do
    let turn ← note position (Payload.toJson context.outline)
    match script[turn]? with
    | some line => line.play
    | none => return .ok { status := fallback }
  defaultTimeout := defaultTimeout
  defaultThreshold := defaultThreshold

def mockChecker (position : Nat) (result : CheckResult) : Checker Memory where
  check context := do
    let _ ← note position (Payload.toJson context.outline)
    return result

/-- The health checker at a position that cancels the run, waits for the signal and reports unknown. -/
def cancellingChecker (position : Nat) : Checker Memory where
  check context := do
    let _ ← note position (Payload.toJson context.outline)
    .cancel .canceled (.awaitCancel fun cause => .answer (.unknown cause.message))

def dual : Runner Memory where
  step := some { run := fun _ => .answer (.ok { status := .succeeded }) }
  check := some { check := fun _ => .answer { status := .healthy } }

structure StandIn where
  result : Option PromotionResult := none
  health : HealthVerdict := { status := .healthy }

def StandIn.promote (s : StandIn) (request : PromotionRequest) (steps : List Step) :
    PromotionResult :=
  s.result.getD
    { status := .succeeded
      message := none
      currentStep := steps.length
      state := request.state
      records := steps.mapIdx fun index step =>
        { stepAlias := step.aliasAt index, status := some .succeeded }
      healthChecks := [] }

end Rehearsal
end Delivery
