import Delivery.Json.Draft

/-!
Reading a JSON text into a draft, once from left to right. Nothing is refused here: faults are recorded
where they stand.
-/

namespace Delivery
namespace Draft

def isGap (c : Char) : Bool := c == ' ' || c == '\n' || c == '\t' || c == '\r'

def skipGap : List Char → List Char
  | [] => []
  | c :: rest => if isGap c then skipGap rest else c :: rest

def brokenBy (fault : Fault) : Draft := .broken fault fault fault

def noValue : Draft := brokenBy (.malformed .expectedValue)

def endOfText : Draft := brokenBy .truncated

/-! ### Strings -/

def hexDigit? (c : Char) : Option Nat :=
  if '0' ≤ c ∧ c ≤ '9' then some (c.toNat - '0'.toNat)
  else if 'a' ≤ c ∧ c ≤ 'f' then some (c.toNat - 'a'.toNat + 10)
  else if 'A' ≤ c ∧ c ≤ 'F' then some (c.toNat - 'A'.toNat + 10)
  else none

def hexNumber? (digits : List Char) : Option Nat :=
  digits.foldlM (fun n c => (hexDigit? c).map (n * 16 + ·)) 0

def escapeLetter? : Char → Option Char
  | '"' => some '"'
  | '\\' => some '\\'
  | '/' => some '/'
  | 'b' => some '\x08'
  | 'f' => some '\x0c'
  | 'n' => some '\n'
  | 'r' => some '\r'
  | 't' => some '\t'
  | _ => none

inductive StringScan where
  /-- Nothing stands for a string with half a character in it. -/
  | whole (value : Option String) (rest : List Char)
  | broken (draft : Draft)

/-- The text ends inside a string. One who wants the string has stopped before, if half a character
stood in it. -/
def unclosedString (halved : Bool) : Draft :=
  let wanted : Fault := if halved then .malformed .garbled else .truncated
  .broken wanted .truncated wanted

/-- How a 16-bit unit continues a string: the character that it completes, or else the unit that waits
for its second half, or else a half that stands alone. -/
def joinUnit (high : Option Nat) (unit : Nat) : Bool × Option Nat × List Char :=
  let low := 0xdc00 ≤ unit ∧ unit ≤ 0xdfff
  match high with
  | some h =>
    if low then (false, none, [Char.ofNat (0x10000 + (h - 0xd800) * 0x400 + (unit - 0xdc00))])
    else (true, none, [])
  | none =>
    if low then (true, none, [])
    else if 0xd800 ≤ unit ∧ unit ≤ 0xdbff then (false, some unit, [])
    else (false, none, [Char.ofNat unit])

/-- Reads a string to its closing quote. `halved`: half a character stood before; `high`: a first half
stands just before; `done`: the characters so far, the last one first. -/
def scanString (halved : Bool) (high : Option Nat) (done : List Char) : List Char → StringScan
  | [] => .broken (unclosedString halved)
  | '"' :: rest =>
    let value := if halved || high.isSome then none else some (String.ofList done.reverse)
    .whole value rest
  | ['\\'] => .broken (unclosedString halved)
  | '\\' :: 'u' :: a :: b :: c :: d :: rest =>
    match hexNumber? [a, b, c, d] with
    | none => .broken (brokenBy (.malformed .garbled))
    | some unit =>
      let (lone, high, more) := joinUnit high unit
      scanString (halved || lone) high (more ++ done) rest
  | '\\' :: 'u' :: short =>
    if (String.ofList short).utf8ByteSize < 4 then .broken (unclosedString halved)
    else .broken (brokenBy (.malformed .garbled))
  | '\\' :: e :: rest =>
    match escapeLetter? e with
    | none => .broken (brokenBy (.malformed .garbled))
    | some c => scanString (halved || high.isSome) none (c :: done) rest
  | c :: rest =>
    if c < ' ' then .broken (brokenBy (.malformed .garbled))
    else scanString (halved || high.isSome) none (c :: done) rest

/-! ### Numbers and literals -/

/-- A number or a literal that breaks off: one who seeks the name of a variant stops at its first
character. -/
def brokenScalar (wanted skipped : Fault) : Draft :=
  .broken wanted skipped (.malformed .expectedValue)

def missingDigit (rest : List Char) : Draft :=
  let wanted : Fault := if rest.isEmpty then .truncated else .malformed .garbled
  brokenScalar wanted (.malformed .garbled)

def takeDigits : List Char → List Nat × List Char
  | [] => ([], [])
  | c :: rest =>
    if c.isDigit then
      let (digits, after) := takeDigits rest
      ((c.toNat - '0'.toNat) :: digits, after)
    else ([], c :: rest)

def takeFraction : List Char → Except Draft (Option (List Nat) × List Char)
  | '.' :: rest =>
    let (digits, after) := takeDigits rest
    if digits.isEmpty then .error (missingDigit after) else .ok (some digits, after)
  | rest => .ok (none, rest)

def takeSigned (below : Bool) (rest : List Char) :
    Except Draft (Option (Bool × List Nat) × List Char) :=
  let (digits, after) := takeDigits rest
  if digits.isEmpty then .error (missingDigit after) else .ok (some (below, digits), after)

def takeExponent : List Char → Except Draft (Option (Bool × List Nat) × List Char)
  | c :: rest =>
    if c = 'e' ∨ c = 'E' then
      match rest with
      | '+' :: rest => takeSigned false rest
      | '-' :: rest => takeSigned true rest
      | rest => takeSigned false rest
    else .ok (none, c :: rest)
  | [] => .ok (none, [])

def takeNumeral (negative : Bool) (text : List Char) :
    Except Draft (Number.Numeral × List Char) := do
  let (whole, rest) := takeDigits text
  if whole.isEmpty then throw (missingDigit rest)
  if whole.head? = some 0 ∧ 1 < whole.length then
    throw (brokenScalar (.malformed .garbled) (.malformed .garbled))
  let (fraction, rest) ← takeFraction rest
  let (exponent, rest) ← takeExponent rest
  return (⟨negative, whole, fraction, exponent⟩, rest)

def readNumber (negative : Bool) (text : List Char) : Draft × Option (List Char) :=
  match takeNumeral negative text with
  | .error draft => (draft, none)
  | .ok (numeral, rest) => (.number (Number.ofNumeral numeral), some rest)

def readLiteral (value : Draft) : List Char → List Char → Draft × Option (List Char)
  | [], text => (value, some text)
  | _ :: _, [] => (brokenScalar .truncated .truncated, none)
  | w :: more, c :: text =>
    if c = w then readLiteral value more text
    else (brokenScalar (.malformed .garbled) (.malformed .garbled), none)

/-! ### Values -/

/-- A member whose key cannot be read: whoever wants the key meets its fault first. -/
def badKey (value : Draft) : Option String × Draft :=
  match value with
  | .broken _ skipped variant => (none, .broken (.malformed .garbled) skipped variant)
  | value => (none, value)

mutual

/-- Reads a value. `fuel` bounds the steps; two for each character suffice. Without a rest the text is
broken inside the value. -/
def readValue : Nat → List Char → Draft × Option (List Char)
  | 0, _ => (endOfText, none)
  | fuel + 1, text =>
    match skipGap text with
    | [] => (endOfText, none)
    | '[' :: rest =>
      let (items, close, rest) := readItems fuel true rest
      (.array items close, rest)
    | '{' :: rest =>
      let (members, close, rest) := readMembers fuel true rest
      (.object members close, rest)
    | '"' :: rest =>
      match scanString false none [] rest with
      | .whole value rest => (.string value, some rest)
      | .broken draft => (draft, none)
    | 'n' :: rest => readLiteral .null "ull".toList rest
    | 't' :: rest => readLiteral (.bool true) "rue".toList rest
    | 'f' :: rest => readLiteral (.bool false) "alse".toList rest
    | '-' :: rest => readNumber true rest
    | c :: rest => if c.isDigit then readNumber false (c :: rest) else (noValue, none)

def readItems : Nat → Bool → List Char → List Draft × Close × Option (List Char)
  | 0, _, _ => ([], .cut .truncated, none)
  | fuel + 1, first, text =>
    match skipGap text with
    | [] => ([], .cut .truncated, none)
    | ']' :: rest => ([], .closed, some rest)
    | c :: rest =>
      if !first && c != ',' then ([], .cut (.malformed .garbled), none)
      else
        match readValue fuel (if first then c :: rest else rest) with
        | (item, none) => ([item], .closed, none)
        | (item, some rest) =>
          let (items, close, rest) := readItems fuel false rest
          (item :: items, close, rest)

def readMembers : Nat → Bool → List Char →
    List (Option String × Draft) × Close × Option (List Char)
  | 0, _, _ => ([], .cut .truncated, none)
  | fuel + 1, first, text =>
    match skipGap text with
    | [] => ([], .cut .truncated, none)
    | '}' :: rest => ([], .closed, some rest)
    | c :: rest =>
      if first then
        match c with
        | '"' => readMember fuel rest
        | c => ([], .strayKey (readValue fuel (c :: rest)).1.found, none)
      else if c = ',' then
        match skipGap rest with
        | [] => ([], .cutAfterComma .truncated, none)
        | '"' :: rest => readMember fuel rest
        | _ => ([], .cutAfterComma (.malformed .garbled), none)
      else ([], .cut (.malformed .garbled), none)

def readMember : Nat → List Char → List (Option String × Draft) × Close × Option (List Char)
  | 0, _ => ([], .cut .truncated, none)
  | fuel + 1, text =>
    match scanString false none [] text with
    | .broken draft => ([(none, draft)], .closed, none)
    | .whole key rest =>
      let (value, rest) :=
        match skipGap rest with
        | ':' :: rest => readValue fuel rest
        | [] => (endOfText, none)
        | _ => (brokenBy (.malformed .garbled), none)
      let member :=
        match key with
        | some key => (some key, value)
        | none => badKey value
      match rest with
      | none => ([member], .closed, none)
      | some rest =>
        let (members, close, rest) := readMembers fuel false rest
        (member :: members, close, rest)

end

end Draft

structure Document where
  root : Draft
  ended : Bool

def Document.ofText (text : String) : Document :=
  let chars := text.toList
  match Draft.readValue (3 * chars.length + 3) chars with
  | (root, none) => ⟨root, true⟩
  | (root, some rest) => ⟨root, (Draft.skipGap rest).isEmpty⟩

end Delivery
