import Delivery.Health.State
import Delivery.Json.Record

/-!
Health checks: what is asked for, what one check reports, and what a run of checks adds up to.
-/

namespace Delivery

structure Criterion where
  kind : String
  config : Payload := {}
  /-- Set when the check is run; it has no place on the wire. -/
  project : String := ""
  stage : String := ""
deriving Inhabited

namespace Criterion

def codec : Codec Criterion :=
  .record "Criteria"
    (.field (.required "kind" .text) (.field (.defaulted "config" .payload {}) .done))
    (fun (kind, config, _) => { kind, config })
    (fun c => (c.kind, c.config, ()))

end Criterion

structure CheckResult where
  status : HealthState
  output : Option Payload := none
  issues : List String := []
deriving Inhabited

namespace CheckResult

def unknown (issue : String) : CheckResult := { status := .unknown, issues := [issue] }

def codec : Codec CheckResult :=
  .record "HealthCheckResult"
    (.field (.required "status" HealthState.codec)
      (.field (.optional "output" .payload) (.field (.listed "issues" .text) .done)))
    (fun (status, output, issues, _) => { status, output, issues })
    (fun r => (r.status, r.output, r.issues, ()))

end CheckResult

structure HealthVerdict where
  status : HealthState
  issues : List String := []
  /-- The outputs of the checks that had one, in order. -/
  output : Option Json := none
deriving Inhabited

namespace HealthVerdict

def codec : Codec HealthVerdict :=
  .record "Health"
    (.field (.required "status" HealthState.codec)
      (.field (.listed "issues" .text) (.field (.optional "output" .json) .done)))
    (fun (status, issues, output, _) => { status, issues, output })
    (fun h => (h.status, h.issues, h.output, ()))

end HealthVerdict
end Delivery
