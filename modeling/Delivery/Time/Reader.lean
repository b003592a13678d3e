import Delivery.Decimal.Power
import Delivery.Text.Blank
import Delivery.Time.Instant

/-!
Reading the text of an instant: date, `T` or a blank, time, and the distance from universal time. Blanks
may stand before every number and mark; a year of more than four digits has a sign.
-/

namespace Delivery
namespace Instant

inductive Refusal where
  | invalid
  | tooShort
  | outOfRange
  | trailing
  /-- The distance from universal time moves the instant off the calendar. -/
  | impossible

def Refusal.message : Refusal → String
  | .invalid => "input contains invalid characters"
  | .tooShort => "premature end of input"
  | .outOfRange => "input is out of range"
  | .trailing => "trailing input"
  | .impossible => "no possible date and time matching input"

def skipBlanks (text : List Char) : List Char := text.dropWhile Text.isBlank

/-- A number of one to `most` digits that fits a signed 64-bit word. -/
def takeNumber (most : Nat) (text : List Char) : Except Refusal (Nat × List Char) :=
  let digits := (text.take most).takeWhile Char.isDigit
  if text.isEmpty then .error .tooShort
  else if digits.isEmpty then .error .invalid
  else
    let value := digits.foldl (fun n c => n * 10 + (c.toNat - '0'.toNat)) 0
    if twoPower 63 ≤ value then .error .outOfRange else .ok (value, text.drop digits.length)

def takeTwo (least greatest : Nat) (text : List Char) : Except Refusal (Nat × List Char) := do
  let (n, rest) ← takeNumber 2 (skipBlanks text)
  if least ≤ n ∧ n ≤ greatest then return (n, rest) else throw .outOfRange

def takeMark (mark : Char) (text : List Char) : Except Refusal (List Char) :=
  match skipBlanks text with
  | [] => .error .tooShort
  | c :: rest => if c = mark then .ok rest else .error .invalid

/-- The year: up to four digits, or a sign and any number of them. -/
def takeYear (text : List Char) : Except Refusal (Int × List Char) := do
  let (year, rest) ←
    match skipBlanks text with
    | '-' :: rest => do
      let (n, rest) ← takeNumber rest.length rest
      pure (-(n : Int), rest)
    | '+' :: rest => do
      let (n, rest) ← takeNumber rest.length rest
      pure ((n : Int), rest)
    | text => do
      let (n, rest) ← takeNumber 4 text
      pure ((n : Int), rest)
  if -(twoPower 31 : Int) ≤ year ∧ year < twoPower 31 then return (year, rest) else throw .outOfRange

/-- The fraction of a second; digits behind the ninth count for nothing. -/
def takeFraction (text : List Char) : Except Refusal (Nat × List Char) :=
  match text with
  | '.' :: rest => do
    let (value, after) ← takeNumber 9 rest
    let digits := rest.length - after.length
    return (value * tenPower (9 - digits), after.dropWhile Char.isDigit)
  | text => .ok (0, text)

def twoDigits (text : List Char) : Except Refusal (Nat × Nat × List Char) :=
  match text with
  | a :: b :: rest =>
    if a.isDigit ∧ b.isDigit then .ok (a.toNat - '0'.toNat, b.toNat - '0'.toNat, rest)
    else .error .invalid
  | short => if (String.ofList short).utf8ByteSize < 2 then .error .tooShort else .error .invalid

def takeOffset (text : List Char) : Except Refusal (Int × List Char) :=
  match skipBlanks text with
  | [] => .error .tooShort
  | sign :: rest =>
    if sign = 'Z' ∨ sign = 'z' then .ok (0, rest)
    else if (sign :: rest).take 3 |>.map Char.toUpper |> (· == ['U', 'T', 'C']) then
      .ok (0, rest.drop 2)
    else do
      let negative ←
        if sign = '+' then pure false
        else if sign = '-' ∨ sign = '−' then pure true
        else throw .invalid
      let (h1, h2, rest) ← twoDigits rest
      let rest := rest.dropWhile fun c => c == ':' || Text.isBlank c
      let (m1, m2, rest) ← twoDigits rest
      if 6 ≤ m1 then throw .outOfRange
      let seconds : Int := ((h1 * 10 + h2) * 3600 + (m1 * 10 + m2) * 60 : Nat)
      return (if negative then -seconds else seconds, rest)

def ofText (text : String) : Except Refusal Instant := do
  let (year, rest) ← takeYear text.toList
  let rest ← takeMark '-' rest
  let (month, rest) ← takeTwo 1 12 rest
  let rest ← takeMark '-' rest
  let (day, rest) ← takeTwo 1 31 rest
  let rest ←
    match rest with
    | [] => throw .tooShort
    | c :: rest => if c = 'T' ∨ c = 't' ∨ c = ' ' then pure rest else throw .invalid
  let (hour, rest) ← takeTwo 0 23 rest
  let rest ← takeMark ':' rest
  let (minute, rest) ← takeTwo 0 59 rest
  let rest ← takeMark ':' rest
  let (second, rest) ← takeTwo 0 60 rest
  let (fraction, rest) ← takeFraction rest
  let (offset, rest) ← takeOffset rest
  if !(skipBlanks rest).isEmpty then throw .trailing
  let date : CalendarDay := ⟨year, month, day⟩
  if !date.isValid then throw .outOfRange
  if 86400 ≤ offset.natAbs then throw .outOfRange
  let leap := if second = 60 then 1 else 0
  let civil := date.number * 86400 + ((hour * 3600 + minute * 60 + (second - leap) : Nat) : Int)
  let seconds := civil - offset
  let calendar := CalendarDay.ofNumber (seconds / 86400)
  if !calendar.isValid then throw .impossible
  return ⟨seconds, fraction + leap * Span.second⟩

end Instant
end Delivery
