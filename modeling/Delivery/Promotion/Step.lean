import Delivery.Json.Record
import Delivery.Time.Span

/-!
The steps of a promotion.
-/

namespace Delivery

/-- What a step says about its own retries, in place of its runner's and the engine's defaults. -/
structure RetryPolicy where
  timeoutSecs : Option UInt64 := none
  errorThreshold : Option UInt32 := none
deriving DecidableEq, Repr, Inhabited

namespace RetryPolicy

def timeout (p : RetryPolicy) : Option Span := p.timeoutSecs.map fun n => .ofSeconds n.toNat

def codec : Codec RetryPolicy :=
  .record "RetryPolicy"
    (.field (.optional "timeoutSecs" .word64) (.field (.optional "errorThreshold" .word32) .done))
    (fun (timeoutSecs, errorThreshold, _) => { timeoutSecs, errorThreshold })
    (fun p => (p.timeoutSecs, p.errorThreshold, ()))

end RetryPolicy

structure Step where
  kind : String
  givenAlias : Option String := none
  config : Payload := {}
  retry : Option RetryPolicy := none
deriving Inhabited

namespace Step

def codec : Codec Step :=
  .record "Step"
    (.field (.required "kind" .text)
      (.field (.optional "alias" .text)
        (.field (.defaulted "config" .payload {}) (.field (.optional "retry" RetryPolicy.codec) .done))))
    (fun (kind, givenAlias, config, retry, _) => { kind, givenAlias, config, retry })
    (fun s => (s.kind, s.givenAlias, s.config, s.retry, ()))

end Step
end Delivery
