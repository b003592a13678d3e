import Delivery.Files.Tree
import Delivery.Json.Schema
import Delivery.Promotion.Alias
import Delivery.Promotion.Record

/-!
The files that a run starts from: steps, criteria, a shared state, the result of an earlier invocation.
Steps and criteria are held against a schema before they are read, and steps must be free of problems.
-/

namespace Delivery

inductive InputFailure where
  | files (action : String) (error : FileError)
  | fault (action : String) (reason : Fault)
  | schema (what : String) (problems : List SchemaProblem)
  | steps (path : FilePath) (problems : List StepProblem)

def InputFailure.message : InputFailure → String
  | .files action error => action ++ ": " ++ error.message
  | .fault action reason => action ++ ": " ++ reason.message
  | .schema what problems =>
    what ++ " schema validation failed: " ++
      String.intercalate "; " (problems.map SchemaProblem.message)
  | .steps path problems =>
    "invalid promotion steps in " ++ path.text ++ ": " ++
      String.intercalate "; " (problems.map StepProblem.message)

namespace Inputs

def isAliasEnd (c : Char) : Bool := c.isAlphanum

/-- Holds of ASCII letters, digits and hyphens, with no hyphen at either end. -/
def isAlias (text : List Char) : Bool :=
  (text.head?.any isAliasEnd) && (text.getLast?.any isAliasEnd) &&
    text.all fun c => isAliasEnd c || c == '-'

def aliasPattern : String := "^[a-zA-Z0-9]([a-zA-Z0-9-]*[a-zA-Z0-9])?$"

def retrySchema : Schema := .record [] [("errorThreshold", .count), ("timeoutSecs", .count)]

def stepsSchema : Schema :=
  .list (.record ["kind"]
    [("alias", .text (.pattern aliasPattern isAlias)),
      ("config", .anyObject),
      ("kind", .text .notEmpty),
      ("retry", retrySchema)])

def criteriaSchema : Schema :=
  .list (.record ["kind"] [("config", .anyObject), ("kind", .text .notEmpty)])

def readText (t : FileTree) (what : String) (path : FilePath) : Except InputFailure String :=
  (t.readText path).mapError (.files ("read " ++ what ++ " " ++ path.text))

def orFault {α : Type} (action what : String) (path : FilePath) (value : Except Fault α) :
    Except InputFailure α :=
  value.mapError (.fault (action ++ " " ++ what ++ " " ++ path.text))

def loadChecked {α : Type} (t : FileTree) (what : String) (schema : Schema) (codec : Codec α)
    (path : FilePath) : Except InputFailure α := do
  let text ← readText t what path
  let value ← orFault "parse" what path (Codec.json.ofText text)
  let problems := schema.problems value
  if !problems.isEmpty then throw (.schema what problems)
  orFault "deserialize" what path (codec.ofJson value)

def loadSteps (t : FileTree) (path : FilePath) : Except InputFailure (List Step) := do
  let steps ← loadChecked t "promotion steps" stepsSchema (.list Step.codec) path
  let problems := StepProblem.ofSteps steps
  if problems.isEmpty then return steps else throw (.steps path problems)

def loadCriteria (t : FileTree) (path : FilePath) : Except InputFailure (List Criterion) :=
  loadChecked t "health checks" criteriaSchema (.list Criterion.codec) path

def loadState (t : FileTree) (path : FilePath) : Except InputFailure Payload := do
  let text ← readText t "state" path
  orFault "parse" "state" path (Codec.payload.ofText text)

def loadResult (t : FileTree) (path : FilePath) : Except InputFailure PromotionResult := do
  let text ← readText t "result" path
  orFault "parse" "result" path (PromotionResult.codec.ofText text)

end Inputs
end Delivery
