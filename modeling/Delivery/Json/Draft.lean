import Delivery.Json.Basic

/-!
A JSON text as far as it can be read. Where reading breaks off the draft says so in place, so that a
reader who walks it from left to right meets each fault exactly when a reader of the text would: a value
of the wrong shape is reported before a fault that stands behind it.
-/

namespace Delivery

inductive Found where
  | null
  | bool (value : Bool)
  | number (value : Number)
  | string (value : String)
  | sequence
  | map

inductive Mismatch where
  | wrongType (found : Found) (wanted : String)
  | wrongValue (found : Found) (wanted : String)
  | wrongLength (length : Nat) (wanted : String)
  | unknownVariant (name : String) (known : List String)
  | missingField (name : String)
  | duplicateField (name : String)
  | refused (reason : String)

inductive Defect where
  | expectedValue
  | trailingCharacters
  | tooDeep
  | garbled

inductive Fault where
  | malformed (defect : Defect)
  | truncated
  | mismatch (what : Mismatch)

inductive Close where
  | closed
  | cut (fault : Fault)
  | cutAfterComma (fault : Fault)
  | strayKey (found : Except Fault Found)

def Close.check : Close → Except Fault Unit
  | .closed => .ok ()
  | .cut fault => .error fault
  | .cutAfterComma fault => .error fault
  | .strayKey _ => .error (.malformed .garbled)

inductive Draft where
  /-- No value can be read. The faults are those met by a reader who wants the value, by one who skips
  it, and by one who wants the name of a variant. -/
  | broken (wanted skipped variant : Fault)
  | null
  | bool (value : Bool)
  /-- Nothing stands for a number that is too large. -/
  | number (value : Option Number)
  /-- Nothing stands for a string with an escape that names half a character. -/
  | string (value : Option String)
  | array (items : List Draft) (close : Close)
  | object (members : List (Option String × Draft)) (close : Close)
deriving Inhabited

namespace Draft

mutual

def ofJson : Json → Draft
  | .null => .null
  | .bool b => .bool b
  | .number n => .number (some n)
  | .string s => .string (some s)
  | .array items => .array (ofItems items) .closed
  | .object members => .object (ofMembers members) .closed

def ofItems : List Json → List Draft
  | [] => []
  | j :: rest => ofJson j :: ofItems rest

def ofMembers : List (String × Json) → List (Option String × Draft)
  | [] => []
  | (k, j) :: rest => (some k, ofJson j) :: ofMembers rest

end

def found : Draft → Except Fault Found
  | .broken wanted _ _ => .error wanted
  | .null => .ok .null
  | .bool b => .ok (.bool b)
  | .number (some n) => .ok (.number n)
  | .number none => .error (.malformed .garbled)
  | .string (some s) => .ok (.string s)
  | .string none => .error (.malformed .garbled)
  | .array _ _ => .ok .sequence
  | .object _ _ => .ok .map

/-- The fault of a member whose key cannot be read, met by one who wants the key. -/
def keyFault : Draft → Fault
  | .broken wanted _ _ => wanted
  | _ => .malformed .garbled

mutual

/-- Passes over a draft that nobody wants: numbers may be too large and strings may hold half
characters. -/
def skip : Draft → Except Fault Unit
  | .broken _ skipped _ => .error skipped
  | .array items close => do
    skipItems items
    close.check
  | .object members close => do
    skipMembers members
    close.check
  | _ => .ok ()

def skipItems : List Draft → Except Fault Unit
  | [] => .ok ()
  | d :: rest => do
    skip d
    skipItems rest

def skipMembers : List (Option String × Draft) → Except Fault Unit
  | [] => .ok ()
  | (_, d) :: rest => do
    skip d
    skipMembers rest

end

end Draft

/-- Where a draft comes from. A text may nest only so deep, and each bracket that is entered counts; a
value that has been read already has no such bound. -/
inductive Origin where
  | text (depth : Nat)
  | value
  /-- A value of a format in which surplus items are passed over. -/
  | loose

namespace Origin

def start : Origin := .text 128

def enter : Origin → Except Fault Origin
  | .text depth => if depth ≤ 1 then .error (.malformed .tooDeep) else .ok (.text (depth - 1))
  | .value => .ok .value
  | .loose => .ok .loose

end Origin

namespace Draft

mutual

def toJson (origin : Origin) : Draft → Except Fault Json
  | .broken wanted _ _ => .error wanted
  | .null => .ok .null
  | .bool b => .ok (.bool b)
  | .number (some n) => .ok (.number n)
  | .number none => .error (.malformed .garbled)
  | .string (some s) => .ok (.string s)
  | .string none => .error (.malformed .garbled)
  | .array items close => do
    let inner ← origin.enter
    let items ← toItems inner items
    close.check
    return .array items
  | .object members close => do
    let inner ← origin.enter
    let members ← toMembers inner members
    close.check
    return .object (Keyed.ofList members).entries

def toItems (origin : Origin) : List Draft → Except Fault (List Json)
  | [] => .ok []
  | d :: rest => do
    let item ← toJson origin d
    let items ← toItems origin rest
    return item :: items

def toMembers (origin : Origin) : List (Option String × Draft) → Except Fault (List (String × Json))
  | [] => .ok []
  | (none, d) :: _ => .error (keyFault d)
  | (some key, d) :: rest => do
    let value ← toJson origin d
    let members ← toMembers origin rest
    return (key, value) :: members

end

end Draft
end Delivery
