import Delivery.Files.WorkDir
import Delivery.Promotion.Alias
import Delivery.Promotion.Record
import Delivery.Registry

/-!
What keeps a promotion, or one attempt of a step, from succeeding.
-/

namespace Delivery

inductive Setback where
  | invalidSteps (problems : List StepProblem)
  | startOutOfRange (start steps : Nat)
  | unknownKind (stepAlias kind : String)
  | runnerFailed (stepAlias : String) (error : RunnerError)
  | timedOut (stepAlias : String) (timeout : Span)
  | canceled (cause : Cause)
  | noWorkDir (dir : FilePath) (error : FileError)
deriving DecidableEq, Repr

def Setback.message : Setback → String
  | .invalidSteps problems =>
    "invalid promotion steps: " ++ String.intercalate "; " (problems.map StepProblem.message)
  | .startOutOfRange start steps => s!"start step {start} is out of range for {steps} steps"
  | .unknownKind stepAlias kind =>
    s!"step {Text.quoted stepAlias}: no promotion step runner registered for step kind " ++
      Text.quoted kind
  | .runnerFailed stepAlias error => s!"step {Text.quoted stepAlias} errored: {error.message}"
  | .timedOut stepAlias timeout =>
    s!"step {Text.quoted stepAlias} timed out after {timeout.render}"
  | .canceled cause => "promotion canceled: " ++ cause.message
  | .noWorkDir dir error => "prepare working directory: " ++ WorkDir.failure dir error

end Delivery
