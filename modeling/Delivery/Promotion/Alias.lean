import Delivery.Promotion.Step
import Delivery.Text.Blank
import Delivery.Text.Digit

/-!
Aliases. A step without an alias of its own is named by its place in the list; names of that form are
reserved, so that no given alias can be mistaken for one.
-/

namespace Delivery
namespace Alias

def byIndex (index : Nat) : String := "step-" ++ toString index

/-- Holds of `step-` and `task-` followed by decimal digits of any script, and nothing else. -/
def isReserved (name : String) : Bool :=
  let digits := name.toList.drop 5
  (name.toList.take 5 == "step-".toList || name.toList.take 5 == "task-".toList) &&
    !digits.isEmpty && digits.all Text.isDecimalDigit

def reservedForm : String := "^(step|task)-\\d+$"

end Alias

namespace Step

/-- The alias that the user gave, unless it is empty. -/
def explicitAlias (s : Step) : Option String := s.givenAlias.filter (· ≠ "")

/-- The alias of a step at an index: its own, or else one made from the index. -/
def aliasAt (s : Step) (index : Nat) : String := s.explicitAlias.getD (Alias.byIndex index)

end Step

inductive StepProblem where
  | emptyKind (index : Nat)
  | reservedAlias (index : Nat) (name : String)
  | repeatedAlias (index : Nat) (name : String)
deriving DecidableEq, Repr

def StepProblem.message : StepProblem → String
  | .emptyKind index => s!"step {index} has an empty kind"
  | .reservedAlias index name =>
    s!"step {index} alias '{name}' matches the reserved pattern {Alias.reservedForm}"
  | .repeatedAlias index name => s!"step {index} alias '{name}' is not unique"

namespace StepProblem

def ofKind (step : Step) (index : Nat) : List StepProblem :=
  if Text.allBlank step.kind then [.emptyKind index] else []

def reservedAlias? (step : Step) : Option String := step.explicitAlias.filter Alias.isReserved

def ofAlias (seen : List String) (step : Step) (index : Nat) : List StepProblem :=
  match reservedAlias? step with
  | some name => [.reservedAlias index name]
  | none =>
    if step.aliasAt index ∈ seen then [.repeatedAlias index (step.aliasAt index)] else []

/-- The aliases seen after a step. A reserved one is not remembered. -/
def remember (seen : List String) (step : Step) (index : Nat) : List String :=
  if (reservedAlias? step).isSome then seen else step.aliasAt index :: seen

def ofStepsFrom (index : Nat) (seen : List String) : List Step → List StepProblem
  | [] => []
  | step :: rest =>
    ofKind step index ++ ofAlias seen step index ++
      ofStepsFrom (index + 1) (remember seen step index) rest

def ofSteps (steps : List Step) : List StepProblem := ofStepsFrom 0 [] steps

end StepProblem
end Delivery
