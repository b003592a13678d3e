import Delivery.Promotion.Attempt

/-!
Running a promotion. One invocation runs the steps from its start on, each once, until one does not
succeed; what a step puts out is in the shared state of the steps after it. A step that suspends or is to
be tried again ends the invocation with the result `Running`, from which a later one goes on.

Nothing is run if the steps are invalid, the start is out of range, a kind has no runner or there is no
working directory.
-/

namespace Delivery

variable {σ : Type}

namespace StepRecord

/-- The record that a step starts from: the previous one if it is of the same alias. -/
def carry (previous : Option StepRecord) (stepAlias : String) : StepRecord :=
  (previous.filter (·.stepAlias = stepAlias)).getD { stepAlias }

def normalizeFrom (index : Nat) : List StepRecord → List Step → List StepRecord
  | _, [] => []
  | previous, step :: rest =>
    carry previous.head? (step.aliasAt index) :: normalizeFrom (index + 1) previous.tail rest

/-- One record for each step: the previous one at its place if the alias is the same, or else a new
one. -/
def normalize (previous : List StepRecord) (steps : List Step) : List StepRecord :=
  normalizeFrom 0 previous steps

end StepRecord

structure Invocation (σ : Type) where
  result : PromotionResult
  attempts : List (Attempt σ) := []

namespace Invocation

def stopped (status : Status) (message : Option String) (index : Nat) (state : Payload)
    (records : List StepRecord) : Invocation σ where
  result := { status, message, currentStep := index, state, records, healthChecks := [] }

def errored (setback : Setback) (index : Nat) (state : Payload) (records : List StepRecord) :
    Invocation σ :=
  stopped .errored (some setback.message) index state records

def behind (i : Invocation σ) (records : List StepRecord) : Invocation σ :=
  { i with result := { i.result with records := records ++ i.result.records } }

def through (i : Invocation σ) (attempt : Attempt σ) (record : StepRecord)
    (healthCheck : Option Criterion) : Invocation σ where
  result :=
    { i.result with
      records := record :: i.result.records
      healthChecks := healthCheck.toList ++ i.result.healthChecks }
  attempts := attempt :: i.attempts

end Invocation

namespace Engine

/-- Runs steps, the first of which has an index. Their records alone are in the result. -/
def walk (e : Engine σ) (request : PromotionRequest) (workDir : String) (index : Nat)
    (state : Payload) : List (Assignment σ) → World σ → Option (Invocation σ × World σ)
  | [], w => some (.stopped .succeeded none index state [], w)
  | a :: rest, w =>
    match w.signal.cause with
    | some cause => some (.errored (.canceled cause) index state ((a :: rest).map (·.record)), w)
    | none => do
      let (attempt, w) ← e.attempt request workDir index state a w
      match attempt.follow a.record with
      | .stop status message record =>
        let last : Invocation σ :=
          .stopped status message index state (record :: rest.map (·.record))
        return ({ last with attempts := [attempt] }, w)
      | .advance record result =>
        let state := state.insert a.record.stepAlias (Payload.toJson result.output)
        let (later, w) ← e.walk request workDir (index + 1) state rest w
        return (later.through attempt record result.healthCheck, w)

structure Unassigned where
  index : Nat
  stepAlias : String
  kind : String

/-- The assignments of steps, the first of which has an index; or else the first step without a
runner. -/
def assign (e : Engine σ) (index : Nat) :
    List (Step × StepRecord) → Except Unassigned (List (Assignment σ))
  | [] => .ok []
  | (step, record) :: rest =>
    match e.registry.stepRunner step.kind with
    | none => .error ⟨index, record.stepAlias, step.kind⟩
    | some (runner, permissions) =>
      (e.assign (index + 1) rest).map ({ step, record, runner, permissions } :: ·)

def workDir (e : Engine σ) (request : PromotionRequest) (w : World σ) :
    Except Setback String × World σ :=
  match request.workDir with
  | some dir => (.ok dir, w)
  | none =>
    let (dir, files) := WorkDir.prepare w.files e.workDirRoot request.project request.promotion
    let w := { w with files }
    match dir with
    | .ok dir => (.ok dir.text, w)
    | .error error =>
      (.error (.noWorkDir (WorkDir.path e.workDirRoot request.project request.promotion) error), w)

def Unassigned.mark (u : Unassigned) (now : Instant) (record : StepRecord) : StepRecord :=
  { record with
    status := some .errored
    message := some (Setback.unknownKind u.stepAlias u.kind).message
    finishedAt := some now }

/-- Runs a promotion. Nothing is returned if a runner waits for ever. -/
def promote (e : Engine σ) (request : PromotionRequest) (steps : List Step) (w : World σ) :
    Option (Invocation σ × World σ) :=
  let start := request.startFromStep
  let records := StepRecord.normalize request.records steps
  let problems := StepProblem.ofSteps steps
  if !problems.isEmpty then
    some (.errored (.invalidSteps problems) start request.state records, w)
  else if steps.length < start then
    some (.errored (.startOutOfRange start steps.length) start request.state records, w)
  else
    match e.assign start ((steps.zip records).drop start) with
    | .error u =>
      let (now, w) := w.now
      some (.errored (.unknownKind u.stepAlias u.kind) u.index request.state
        (records.modify u.index (u.mark now)), w)
    | .ok assignments =>
      match e.workDir request w with
      | (.error setback, w) => some (.errored setback start request.state records, w)
      | (.ok dir, w) =>
        (e.walk request dir start request.state assignments w).map fun (invocation, w) =>
          (invocation.behind (records.take start), w)

end Engine
end Delivery
