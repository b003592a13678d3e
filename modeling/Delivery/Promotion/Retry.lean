import Delivery.Promotion.Record

/-!
Retries: how long an attempt may take, how many failures in a row a step may have, and what follows from
an attempt.
-/

namespace Delivery
namespace Retry

/-- The time that an attempt may take: the step's own, or else its runner's, or else the engine's. An empty
span lifts the limit. -/
def effectiveTimeout (policy : Option RetryPolicy) (runner engine : Option Span) : Option Span :=
  ((policy.bind RetryPolicy.timeout) <|> runner <|> engine).bind Span.nonzero?

def positive? (n : UInt32) : Option UInt32 := if n = 0 then none else some n

/-- The failures in a row that end a promotion: the step's own number, or else its runner's, or else the
engine's. Zero stands for no number, and one failure always suffices if there is none. -/
def effectiveThreshold (policy : Option RetryPolicy) (runner engine : UInt32) : UInt32 :=
  let own := policy.bind (·.errorThreshold)
  ((own.bind positive?) <|> positive? runner <|> positive? engine).getD 1

def remainingBudget (timeout elapsed : Span) : Option Span := timeout.remainder? elapsed

inductive Verdict where
  | advance
  | suspend
  | retry (errorCount threshold : UInt32)
  | abort (status : Status) (errorCount threshold : UInt32)
deriving DecidableEq, Repr

def increment (n : UInt32) : UInt32 := if n = 0xffffffff then n else n + 1

/-- Enters an attempt into the record of its step. A failure counts; anything else sets the count back. -/
def enter (record : StepRecord) (status : Status) (threshold : UInt32) : Verdict × StepRecord :=
  let record := { record with status := some status }
  match status with
  | .succeeded => (.advance, { record with errorCount := 0 })
  | .running => (.suspend, { record with errorCount := 0 })
  | .failed | .errored =>
    let count := increment record.errorCount
    let verdict := if threshold ≤ count then .abort status count threshold else .retry count threshold
    (verdict, { record with errorCount := count })

end Retry
end Delivery
