import Delivery.Json.Reader
import Delivery.Json.Printer
import Delivery.Json.Fault

/-!
Codecs: how a value of a type is read from a draft and written as JSON, and codecs for the plain types.
-/

namespace Delivery

structure Codec (α : Type) where
  read : Origin → Draft → Except Fault α
  write : α → Json

/-- Refuses a draft because another type is wanted; a fault at its head comes first. -/
def Draft.wrongType {α : Type} (d : Draft) (wanted : String) : Except Fault α := do
  let found ← d.found
  throw (.mismatch (.wrongType found wanted))

namespace Codec

variable {α β : Type}

def ofText (c : Codec α) (text : String) : Except Fault α := do
  let document := Document.ofText text
  let value ← c.read .start document.root
  if document.ended then return value else throw (.malformed .trailingCharacters)

def ofJson (c : Codec α) (value : Json) : Except Fault α := c.read .value (.ofJson value)

def ofPayload (c : Codec α) (p : Payload) : Except Fault α := c.ofText (Payload.toJson p).compact

def map (c : Codec α) (into : α → β) (back : β → α) : Codec β where
  read origin d := (c.read origin d).map into
  write b := c.write (back b)

def json : Codec Json where
  read origin d := d.toJson origin
  write j := j

def payload : Codec Payload where
  read origin d :=
    match d with
    | .object members close => do
      let inner ← origin.enter
      let members ← Draft.toMembers inner members
      close.check
      return Keyed.ofList members
    | d => d.wrongType "a map"
  write p := Payload.toJson p

def string (wanted : String) : Codec String where
  read _ d :=
    match d with
    | .string (some s) => .ok s
    | d => d.wrongType wanted
  write s := .string s

def text : Codec String := string "a string"

def nat (greatest : Nat) (wanted : String) : Codec Nat where
  read _ d :=
    match d with
    | .number (some (.integer n)) =>
      if 0 ≤ n ∧ n ≤ greatest then .ok n.toNat
      else .error (.mismatch (.wrongValue (.number (.integer n)) wanted))
    | d => d.wrongType wanted
  write n := .ofNat n

def word32 : Codec UInt32 := (nat (twoPower 32 - 1) "u32").map UInt32.ofNat UInt32.toNat

def word64 : Codec UInt64 := (nat (twoPower 64 - 1) "u64").map UInt64.ofNat UInt64.toNat

def position : Codec Nat := nat (twoPower 64 - 1) "usize"

/-- A value that may be missing; the null value stands for none. -/
def option (c : Codec α) : Codec (Option α) where
  read origin d :=
    match d with
    | .null => .ok none
    | d => (c.read origin d).map some
  write
    | none => .null
    | some a => c.write a

/-- Reads items in order, the first fault first. -/
def readAll (c : Codec α) (origin : Origin) : List Draft → Except Fault (List α)
  | [] => .ok []
  | d :: rest => do
    let item ← c.read origin d
    let items ← readAll c origin rest
    return item :: items

def list (c : Codec α) : Codec (List α) where
  read origin d :=
    match d with
    | .array items close => do
      let inner ← origin.enter
      let items ← c.readAll inner items
      close.check
      return items
    | d => d.wrongType "a sequence"
  write items := .array (items.map c.write)

/-! ### Variants -/

def variantNamed (variants : List (String × α)) (name : String) : Except Fault α :=
  match Entries.get? name variants with
  | some a => .ok a
  | none => .error (.mismatch (.unknownVariant name (variants.map (·.1))))

/-- A variant carries nothing: only the null value may stand beside its name. -/
def nothing (d : Draft) : Except Fault Unit :=
  match d with
  | .null => .ok ()
  | d => d.wrongType "unit"

/-- Reads a variant from a text: its name, or an object with its name alone. -/
def readVariantText (variants : List (String × α)) (origin : Origin) :
    Draft → Except Fault α
  | .string (some name) => variantNamed variants name
  | .string none => .error (.malformed .garbled)
  | .broken _ _ variant => .error variant
  | .object members close => do
    let _ ← origin.enter
    match members with
    | [] =>
      match close with
      | .closed => throw (.malformed .expectedValue)
      | .strayKey found =>
        let found ← found
        throw (.mismatch (.wrongType found "variant identifier"))
      | .cut fault => throw fault
      | .cutAfterComma fault => throw fault
    | (none, d) :: _ => throw d.keyFault
    | (some name, d) :: more =>
      let a ← variantNamed variants name
      nothing d
      if more.isEmpty then
        match close with
        | .closed => return a
        | .cut fault => throw fault
        | _ => throw (.malformed .expectedValue)
      else throw (.malformed .expectedValue)
  | _ => .error (.malformed .expectedValue)

def readVariantValue (variants : List (String × α)) : Draft → Except Fault α
  | .string (some name) => variantNamed variants name
  | .object [(some name, d)] _ => do
    let a ← variantNamed variants name
    nothing d
    return a
  | .object _ _ => .error (.mismatch (.wrongValue .map "map with a single key"))
  | d => d.wrongType "string or map"

def variant (variants : List (String × α)) (name : α → String) : Codec α where
  read origin d :=
    match origin with
    | .text _ => readVariantText variants origin d
    | _ => readVariantValue variants d
  write a := .string (name a)

end Codec
end Delivery
