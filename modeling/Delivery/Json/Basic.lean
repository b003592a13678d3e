import Delivery.Keyed
import Delivery.Json.Number

/-!
JSON values. An object is a list of members in the order in which it is written; a payload is an object
as a map, and writes its members in ascending order.
-/

namespace Delivery

inductive Json where
  | null
  | bool (value : Bool)
  | number (value : Number)
  | string (value : String)
  | array (items : List Json)
  | object (members : List (String × Json))
deriving Inhabited

/-- An opaque JSON object: a step's configuration, its output, or the state shared by the steps. -/
abbrev Payload := Keyed Json

def Payload.toJson (p : Payload) : Json := .object (Keyed.entries p)

namespace Json

mutual

/-- Equality of values whose objects list their members in one order. -/
def same : Json → Json → Bool
  | null, null => true
  | bool a, bool b => a == b
  | number a, number b => a.same b
  | string a, string b => a == b
  | array a, array b => sameItems a b
  | object a, object b => sameMembers a b
  | _, _ => false

def sameItems : List Json → List Json → Bool
  | [], [] => true
  | a :: as, b :: bs => same a b && sameItems as bs
  | _, _ => false

def sameMembers : List (String × Json) → List (String × Json) → Bool
  | [], [] => true
  | (k, a) :: as, (l, b) :: bs => k == l && same a b && sameMembers as bs
  | _, _ => false

end

def ofNat (n : Nat) : Json := .number (.integer n)

def field (value : Json) (key : String) : Json :=
  match value with
  | .object members => (Entries.get? key members).getD .null
  | _ => .null

def field? (value : Json) (key : String) : Option Json :=
  match value with
  | .object members => Entries.get? key members
  | _ => none

def isNull : Json → Bool
  | .null => true
  | _ => false

end Json
end Delivery
