import Delivery.Engine

/-!
Running health checks. The checks run in order, each once, until the run is cancelled; their results add
up to the worst state, all issues and all outputs. A kind without a checker, and a cancellation, count as
unknown.
-/

namespace Delivery

variable {σ : Type}

def noChecker (kind : String) : String :=
  "no health checker registered for health check kind " ++ Text.quoted kind

namespace HealthVerdict

def ofResults (results : List CheckResult) : HealthVerdict :=
  let outputs := results.filterMap (·.output)
  { status := .mergeAll (results.map (·.status))
    issues := results.flatMap (·.issues)
    output := if outputs.isEmpty then none else some (.array (outputs.map Payload.toJson)) }

end HealthVerdict

structure CheckRun (σ : Type) where
  results : List CheckResult := []
  contexts : List (CheckContext σ) := []

namespace Engine

def runChecks (e : Engine σ) (project stage : String) :
    List Criterion → World σ → Option (CheckRun σ × World σ)
  | [], w => some ({}, w)
  | criterion :: rest, w =>
    match w.signal.cause with
    | some cause => some ({ results := [.unknown cause.message] }, w)
    | none =>
      match e.registry.healthChecker criterion.kind with
      | none => do
        let (later, w) ← e.runChecks project stage rest w
        return ({ later with results := .unknown (noChecker criterion.kind) :: later.results }, w)
      | some (checker, permissions) =>
        let builder : ContextBuilder σ := ⟨e.collaborators, ""⟩
        let context := builder.check permissions { criterion with project, stage }
        match (checker.check context).run none w with
        | (.answered result, w) => do
          let (later, w) ← e.runChecks project stage rest w
          return (⟨result :: later.results, context :: later.contexts⟩, w)
        | (.cutOff, _) => none
        | (.stuck, _) => none

/-- Runs the checks of criteria and adds them up. Nothing is returned if a checker waits for ever. -/
def checkHealth (e : Engine σ) (project stage : String) (criteria : List Criterion) (w : World σ) :
    Option (HealthVerdict × World σ) :=
  (e.runChecks project stage criteria w).map fun (run, w) => (.ofResults run.results, w)

end Engine
end Delivery
