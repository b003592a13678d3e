import Delivery.Json.Codec

/-!
The states of health, from best to worst. States merge to the worse one.
-/

namespace Delivery

inductive HealthState where
  | healthy
  | progressing
  | unknown
  | unhealthy
deriving DecidableEq, Repr, Inhabited

namespace HealthState

def rank : HealthState → Nat
  | healthy => 0
  | progressing => 1
  | unknown => 2
  | unhealthy => 3

def merge (a b : HealthState) : HealthState := if a.rank < b.rank then b else a

def better (a b : HealthState) : HealthState := if b.rank < a.rank then b else a

/-- The worst of a list of states; healthy if there is none. -/
def mergeAll (states : List HealthState) : HealthState := states.foldl merge healthy

def trail (states : List HealthState) : List HealthState :=
  (List.range states.length).map fun n => mergeAll (states.take (n + 1))

def best? : List HealthState → Option HealthState
  | [] => none
  | s :: rest => some (rest.foldl better s)

def worst? : List HealthState → Option HealthState
  | [] => none
  | s :: rest => some (rest.foldl merge s)

def name : HealthState → String
  | healthy => "Healthy"
  | progressing => "Progressing"
  | unknown => "Unknown"
  | unhealthy => "Unhealthy"

def variants : List (String × HealthState) :=
  [healthy, progressing, unknown, unhealthy].map fun s => (s.name, s)

def codec : Codec HealthState := .variant variants name

end HealthState
end Delivery
