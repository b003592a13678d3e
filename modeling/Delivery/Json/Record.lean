import Delivery.Json.Codec

/-!
Records: JSON objects with known fields. A record is read from an object, in which unknown keys are
passed over and the order is free, or from an array of its fields in order, whose missing tail takes the
defaults. It is written as an object with its fields in order.
-/

namespace Delivery

structure Field (α : Type) where
  name : String
  read : Origin → Draft → Except Fault α
  /-- What a missing field stands for; nothing if it must be there. -/
  default : Option α
  /-- What is written; nothing for a field that is left out. -/
  write : α → Option Json

namespace Field

variable {α : Type}

def required (name : String) (c : Codec α) : Field α :=
  ⟨name, c.read, none, fun a => some (c.write a)⟩

def defaulted (name : String) (c : Codec α) (value : α) : Field α :=
  ⟨name, c.read, some value, fun a => some (c.write a)⟩

def optional (name : String) (c : Codec α) : Field (Option α) :=
  ⟨name, c.option.read, some none, fun a => a.map c.write⟩

def listed (name : String) (c : Codec α) : Field (List α) :=
  ⟨name, c.list.read, some [], fun items => if items.isEmpty then none else some (c.list.write items)⟩

end Field

inductive Fields : Type → Type 1 where
  | done : Fields Unit
  | field {α β : Type} (head : Field α) (rest : Fields β) : Fields (α × β)

namespace Fields

def Slots {β : Type} : Fields β → Type
  | .done => Unit
  | @Fields.field α _ _ rest => Option α × rest.Slots

def vacant : {β : Type} → (fields : Fields β) → fields.Slots
  | _, .done => ()
  | _, .field _ rest => (none, rest.vacant)

def count : {β : Type} → Fields β → Nat
  | _, .done => 0
  | _, .field _ rest => rest.count + 1

/-- Takes a member: a known key must be new, an unknown one is passed over. -/
def accept (origin : Origin) (key : String) (d : Draft) :
    {β : Type} → (fields : Fields β) → fields.Slots → Except Fault fields.Slots
  | _, .done, slots => do
    d.skip
    return slots
  | _, .field (α := α) head rest, slots => do
    let (value, slots) : Option α × rest.Slots := slots
    if head.name = key then
      if value.isSome then throw (.mismatch (.duplicateField key))
      let a ← head.read origin d
      return (some a, slots)
    else
      let slots ← rest.accept origin key d slots
      return (value, slots)

def acceptAll {β : Type} (fields : Fields β) (origin : Origin) :
    List (Option String × Draft) → fields.Slots → Except Fault fields.Slots
  | [], slots => .ok slots
  | (none, d) :: _, _ => .error d.keyFault
  | (some key, d) :: rest, slots => do
    let slots ← fields.accept origin key d slots
    fields.acceptAll origin rest slots

def settle : {β : Type} → (fields : Fields β) → fields.Slots → Except Fault β
  | _, .done, _ => .ok ()
  | _, .field (α := α) head rest, slots => do
    let (value, slots) : Option α × rest.Slots := slots
    let a ←
      match value, head.default with
      | some a, _ => pure a
      | none, some a => pure a
      | none, none => throw (.mismatch (.missingField head.name))
    let b ← rest.settle slots
    return (a, b)

/-- Reads the fields from the items of an array, the first of them at `index`, and returns the items
left over. `wanted` names the record in a message. -/
def readItems (origin : Origin) (wanted : String) (close : Close) :
    {β : Type} → Nat → (fields : Fields β) → List Draft → Except Fault (β × List Draft)
  | _, _, .done, items => .ok ((), items)
  | _, index, .field head rest, d :: items => do
    let a ← head.read origin d
    let (b, left) ← rest.readItems origin wanted close (index + 1) items
    return ((a, b), left)
  | _, index, .field head rest, [] => do
    close.check
    let a ←
      match head.default with
      | some a => pure a
      | none => throw (.mismatch (.wrongLength index wanted))
    let (b, left) ← rest.readItems origin wanted close (index + 1) []
    return ((a, b), left)

def write : {β : Type} → Fields β → β → List (String × Json)
  | _, .done, _ => []
  | _, .field head rest, (a, b) =>
    match head.write a with
    | some j => (head.name, j) :: rest.write b
    | none => rest.write b

/-- Items that no field takes: in a text they break it, in a value their number is wrong, and in a loose
one they mean nothing. -/
def leftOver (origin : Origin) (length : Nat) (close : Close) (left : List Draft) :
    Except Fault Unit :=
  if left.isEmpty then close.check
  else
    match origin with
    | .text _ => .error (.malformed .trailingCharacters)
    | .value => .error (.mismatch (.wrongLength length "fewer elements in array"))
    | .loose => .ok ()

def read {β : Type} (fields : Fields β) (name : String) (origin : Origin) :
    Draft → Except Fault β
  | .object members close => do
    let inner ← origin.enter
    let slots ← fields.acceptAll inner members fields.vacant
    close.check
    fields.settle slots
  | .array items close => do
    let inner ← origin.enter
    let count := fields.count
    let wanted := s!"struct {name} with {count} element" ++ (if count = 1 then "" else "s")
    let (b, left) ← fields.readItems inner wanted close 0 items
    leftOver origin items.length close left
    return b
  | d => d.wrongType s!"struct {name}"

end Fields

def Codec.record {α β : Type} (name : String) (fields : Fields β) (into : β → α) (back : α → β) :
    Codec α where
  read origin d := (fields.read name origin d).map into
  write a := .object (fields.write (back a))

end Delivery
