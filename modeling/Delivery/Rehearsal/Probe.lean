import Delivery.Rehearsal.Memory
import Delivery.Rehearsal.View

/-!
Probes: runners that play a script of cues. A cue is a JSON object; its members say what is to be done
before the answer and which answer to give.
-/

namespace Delivery
namespace Rehearsal

def causeOf (value : Json) : Cause :=
  match value, value.field "Other" with
  | .string "DeadlineExceeded", _ => .deadlineExceeded
  | _, .string reason => .other reason
  | _, _ => .canceled

def textOf (value : Json) (key : String) : String :=
  match value.field key with
  | .string s => s
  | _ => ""

def tells (value : Json) (key : String) : Bool := !(value.field key).isNull

def asks (value : Json) (key : String) : Bool := value.field key matches .bool true

def Cue.prelude (cue : Json) : Behaviour Memory Unit :=
  let cancel : Behaviour Memory Unit :=
    if tells cue "cancel" then .cancel (causeOf (cue.field "cancel")) (.answer ()) else .answer ()
  match cue.field "sleep_ms" with
  | .number (.integer n) => .sleep (.ofMilliseconds n.toNat) cancel
  | _ => cancel

def orReasons {α : Type} (reasons : List String) (value : Except Fault α) : Except RunnerError α :=
  value.mapError fun fault => ⟨reasons ++ [fault.message]⟩

def succeedWith (output : Payload) : StepResult := { status := .succeeded, output }

def lookUpCredential (query : Json) (context : StepContext Memory) :
    Behaviour Memory (Except RunnerError StepResult) :=
  match context.grants.credentials with
  | none => .answer (.error ⟨["credentials not granted"]⟩)
  | some store =>
    match orReasons [] (CredentialKind.codec.ofJson (query.field "type")) with
    | .error e => .answer (.error e)
    | .ok kind =>
      .fetch fun m =>
        let output : Payload :=
          match store.find (textOf query "project") kind (textOf query "name") m with
          | some c => .ofList [("username", .string c.username), ("password", .string c.password)]
          | none => .ofList [("value", .null)]
        .answer (.ok (succeedWith output))

def clientOf (query : Json) (context : StepContext Memory) : Option (ClusterClient Memory) :=
  match query.field "client" with
  | .string "primary" => context.grants.primary
  | .string "target" => context.grants.target
  | _ => none

def objectKeyOf (query : Json) : ObjectKey :=
  ⟨textOf query "kind", textOf query "namespace", textOf query "name"⟩

def succeedWithObject (object : Option Json) : StepResult :=
  succeedWith (.ofList [("object", object.getD .null)])

def getObject (query : Json) (context : StepContext Memory) :
    Behaviour Memory (Except RunnerError StepResult) :=
  match clientOf query context with
  | none => .answer (.error ⟨["cluster client not granted"]⟩)
  | some client =>
    .fetch fun m => .answer (.ok (succeedWithObject (client.get (objectKeyOf query) m)))

def patchObject (query : Json) (context : StepContext Memory) :
    Behaviour Memory (Except RunnerError StepResult) :=
  match clientOf query context with
  | none => .answer (.error ⟨["cluster client not granted"]⟩)
  | some client =>
    let key := objectKeyOf query
    .fetch fun m =>
      match client.patch key (query.field "patch") m with
      | .error reason => .answer (.error ⟨[reason]⟩)
      | .ok m => .store m (.answer (.ok (succeedWithObject (client.get key m))))

def decodeConfig (context : StepContext Memory) : Except RunnerError StepResult := do
  let policy ← orReasons ["decode config"] (RetryPolicy.codec.ofPayload context.config)
  match RetryPolicy.codec.write policy with
  | .object members => return succeedWith (.ofList members)
  | _ => return { status := .succeeded }

def Cue.answerStep (cue : Json) (context : StepContext Memory) :
    Behaviour Memory (Except RunnerError StepResult) :=
  if asks cue "await_cancel" then
    .awaitCancel fun cause => .answer (.error ⟨[cause.message]⟩)
  else if tells cue "result" then
    .answer (orReasons [] (StepResult.codec.ofJson (cue.field "result")))
  else
    match cue.field "errors" with
    | .array reasons =>
      .answer (.error ⟨reasons.map fun reason => match reason with | .string s => s | _ => ""⟩)
    | _ =>
      if asks cue "echo" then .answer (.ok (succeedWith context.view))
      else if tells cue "credential" then lookUpCredential (cue.field "credential") context
      else if tells cue "cluster_get" then getObject (cue.field "cluster_get") context
      else if tells cue "cluster_patch" then patchObject (cue.field "cluster_patch") context
      else if asks cue "decode" then .answer (decodeConfig context)
      else .answer (.ok { status := .succeeded })

def Cue.answerCheck (cue : Json) (context : CheckContext Memory) : Behaviour Memory CheckResult :=
  if asks cue "await_cancel" then .awaitCancel fun cause => .answer (.unknown cause.message)
  else if tells cue "result" then
    match CheckResult.codec.ofJson (cue.field "result") with
    | .ok result => .answer result
    | .error fault => .answer (.unknown fault.message)
  else if asks cue "echo" then .answer { status := .healthy, output := some context.view }
  else .answer { status := .healthy }

def probe (position : Nat) (script : List Json) (defaultTimeout : Option Span)
    (defaultThreshold : UInt32) : StepRunner Memory where
  run context := do
    let turn ← note position (Payload.toJson context.view)
    match script[turn]? with
    | none => return .ok { status := .succeeded }
    | some cue => do
      Cue.prelude cue
      Cue.answerStep cue context
  defaultTimeout := defaultTimeout
  defaultThreshold := defaultThreshold

def probeChecker (position : Nat) (script : List Json) : Checker Memory where
  check context := do
    let turn ← note position (Payload.toJson context.view)
    match script[turn]? with
    | none => return { status := .healthy }
    | some cue => do
      Cue.prelude cue
      Cue.answerCheck cue context

end Rehearsal
end Delivery
