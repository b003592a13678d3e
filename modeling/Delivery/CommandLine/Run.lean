import Delivery.CommandLine.Basic
import Delivery.ComposeOutput
import Delivery.Health.Run
import Delivery.Inputs
import Delivery.Promotion.Run
import Delivery.Settings.File

/-!
Running a command: the inputs are loaded, the engine runs with what comes with it and no collaborators,
and the result is printed as JSON. The exit tells how it went. `execute` begins with the arguments.
-/

namespace Delivery

inductive Exit where
  | ok
  | invalid
  | failed
  | pending
  | usage
deriving DecidableEq, Repr

namespace Exit

def code : Exit → UInt32
  | ok => 0
  | invalid => 1
  | failed => 2
  | pending => 3
  | usage => 2

def ofStatus : Status → Exit
  | .succeeded => ok
  | .failed => failed
  | .errored => failed
  | .running => pending

def ofHealth : HealthState → Exit
  | .healthy => ok
  | .unhealthy => failed
  | .progressing => pending
  | .unknown => pending

end Exit

structure Report where
  exit : Exit
  output : String := ""
  diagnostics : String := ""
deriving DecidableEq, Repr

namespace Report

def ofFailure (message : String) : Report := { exit := .invalid, diagnostics := message ++ "\n" }

def print (exit : Exit) (value : Json) : Report := { exit, output := value.pretty 0 ++ "\n" }

end Report

/-- The report on arguments that are no command. Only what was asked for is output. -/
def Refusal.report : Refusal → Report
  | .usage => { exit := .usage, diagnostics := CommandLine.help }
  | .information text => { exit := .ok, output := text }

namespace CommandLine

structure Environment where
  temporary : FilePath
  clock : Nat → Instant
  files : FileTree
  /-- What the reader of TOML has to say about a text that it refuses. -/
  complaint : String → String

def Environment.world (e : Environment) (timeoutSecs : Option UInt64) : World Unit where
  time := 0
  signal :=
    match timeoutSecs with
    | none => .idle
    | some n => Signal.idle.cancelAt (Span.ofSeconds n.toNat).nanoseconds
  memory := ()
  files := e.files
  clock := e.clock
  readings := 0

def Environment.engine (e : Environment) (settings : Settings) : Engine Unit :=
  .ofSettings .withBuiltins {} settings e.temporary

structure PromotionInputs where
  steps : List Step
  settings : Settings
  request : PromotionRequest

def loadPromotion (e : Environment) (steps : FilePath) (project stage : String)
    (promotion : Option String) (state resume config : Option FilePath) :
    Except String PromotionInputs := do
  let steps ← (Inputs.loadSteps e.files steps).mapError (·.message)
  let settings ←
    match config with
    | none => pure {}
    | some path => (Settings.load e.files path).mapError (·.explain e.complaint)
  let request : PromotionRequest :=
    { project, stage, promotion := promotion.getD (stage ++ ".local") }
  let request ←
    match state with
    | none => pure request
    | some path => do
      let state ← (Inputs.loadState e.files path).mapError (·.message)
      pure { request with state }
  let request ←
    match resume with
    | none => pure request
    | some path => do
      let previous ← (Inputs.loadResult e.files path).mapError (·.message)
      pure (request.resumeFrom previous)
  return { steps, settings, request }

def run (e : Environment) : Command → Report × FileTree
  | .validate steps =>
    match Inputs.loadSteps e.files steps with
    | .error failure => (.ofFailure failure.message, e.files)
    | .ok steps => ({ exit := .ok, output := s!"ok: {steps.length} steps\n" }, e.files)
  | .promote steps project stage promotion state resume config timeoutSecs =>
    match loadPromotion e steps project stage promotion state resume config with
    | .error message => (.ofFailure message, e.files)
    | .ok inputs =>
      match (e.engine inputs.settings).promote inputs.request inputs.steps (e.world timeoutSecs) with
      | none => (.ofFailure "the promotion never ends", e.files)
      | some (invocation, w) =>
        let result := invocation.result
        (.print (.ofStatus result.status) (PromotionResult.codec.write result), w.files)
  | .checkHealth criteria project stage timeoutSecs =>
    match Inputs.loadCriteria e.files criteria with
    | .error failure => (.ofFailure failure.message, e.files)
    | .ok criteria =>
      match (e.engine {}).checkHealth project stage criteria (e.world timeoutSecs) with
      | none => (.ofFailure "the health checks never end", e.files)
      | some (verdict, w) =>
        (.print (.ofHealth verdict.status) (HealthVerdict.codec.write verdict), w.files)

def execute (e : Environment) (args : List String) : Report × FileTree :=
  match ofArguments args with
  | .error refusal => (refusal.report, e.files)
  | .ok command => run e command

end CommandLine
end Delivery
