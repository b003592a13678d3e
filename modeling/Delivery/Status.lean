import Delivery.Json.Codec

/-!
The status of a step's attempt, and of a promotion as a whole.
-/

namespace Delivery

inductive Status where
  | succeeded
  | failed
  | errored
  /-- Not done yet; the promotion is to be resumed later. -/
  | running
deriving DecidableEq, Repr, Inhabited

namespace Status

def name : Status → String
  | succeeded => "Succeeded"
  | failed => "Failed"
  | errored => "Errored"
  | running => "Running"

def variants : List (String × Status) := [succeeded, failed, errored, running].map fun s => (s.name, s)

def isTerminal : Status → Bool
  | running => false
  | _ => true

def isFailure : Status → Bool
  | failed => true
  | errored => true
  | _ => false

def codec : Codec Status := .variant variants name

end Status
end Delivery
