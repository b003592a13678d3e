import Delivery.Json.Reader
import Delivery.Time.Instant
import Delivery.Toml.Table

/-!
The values of a TOML document that stand without quotes: truth values, integers, floating-point numbers,
dates and times.
-/

namespace Delivery
namespace Toml
namespace Scalar

/-- Digits without the underscores between them. An underscore stands between two digits. -/
def ungroup (isDigit : Char → Bool) : List Char → Option (List Char)
  | [] => none
  | [c] => if isDigit c then some [c] else none
  | c :: '_' :: rest => if isDigit c then (ungroup isDigit rest).map (c :: ·) else none
  | c :: rest => if isDigit c then (ungroup isDigit rest).map (c :: ·) else none

def digitValue (c : Char) : Nat :=
  if c.isDigit then c.toNat - '0'.toNat else (c.toLower.toNat - 'a'.toNat) + 10

def decimals (text : List Char) : Option (List Nat) :=
  (ungroup Char.isDigit text).map (·.map digitValue)

def number (base : Nat) (digits : List Char) : Nat :=
  digits.foldl (fun n c => n * base + digitValue c) 0

/-- An integer; one of more than 128 bits is refused. -/
def integer (n : Int) : Option Node :=
  if -(twoPower 127 : Int) ≤ n ∧ n < twoPower 128 then some (.value (.number (.integer n))) else none

def based (base : Nat) (isDigit : Char → Bool) (text : List Char) : Option Node := do
  let digits ← ungroup isDigit text
  integer (number base digits)

def takeSign : List Char → Bool × List Char
  | '+' :: rest => (false, rest)
  | '-' :: rest => (true, rest)
  | text => (false, text)

def isGrouped (c : Char) : Bool := c.isDigit || c == '_'

def exponent? : List Char → Option (Option (Bool × List Nat))
  | [] => some none
  | mark :: rest =>
    if mark = 'e' ∨ mark = 'E' then
      let (negative, digits) := takeSign rest
      (decimals digits).map fun digits => some (negative, digits)
    else none

def real (numeral : Number.Numeral) : Option Node :=
  numeral.real.map fun x => .value (.number (.real x))

/-- A decimal number. A whole part of several digits does not begin with zero. What is no finite number,
which JSON lacks, is given as zero. -/
def decimal (text : List Char) : Option Node := do
  let (negative, text) := takeSign text
  if text = "inf".toList ∨ text = "nan".toList then
    return .value (.number (.real .zero))
  let whole ← decimals (text.takeWhile isGrouped)
  if whole.head? = some 0 ∧ 1 < whole.length then failure
  match text.dropWhile isGrouped with
  | [] =>
    let n : Int := Number.ofDigits whole
    integer (if negative then -n else n)
  | '.' :: rest =>
    let fraction ← decimals (rest.takeWhile isGrouped)
    let exponent ← exponent? (rest.dropWhile isGrouped)
    real ⟨negative, whole, some fraction, exponent⟩
  | rest =>
    let exponent ← exponent? rest
    real ⟨negative, whole, none, exponent⟩

/-! ### Dates and times -/

def takeFixed (width : Nat) (text : List Char) : Option (Nat × List Char) :=
  let digits := text.take width
  if digits.length = width ∧ digits.all Char.isDigit then
    some (number 10 digits, text.drop width)
  else none

def takePair (greatest : Nat) (text : List Char) : Option (Nat × List Char) := do
  let (n, rest) ← takeFixed 2 text
  if n ≤ greatest then return (n, rest) else failure

def expect (c : Char) : List Char → Option (List Char)
  | d :: rest => if d = c then some rest else none
  | [] => none

def takeDate (text : List Char) : Option (List Char) := do
  let (year, rest) ← takeFixed 4 text
  let rest ← expect '-' rest
  let (month, rest) ← takeFixed 2 rest
  let rest ← expect '-' rest
  let (day, rest) ← takeFixed 2 rest
  if (CalendarDay.mk year month day).isValid then return rest else failure

def takeSeconds : List Char → Option (List Char)
  | ':' :: rest => do
    let (_, rest) ← takePair 60 rest
    match rest with
    | '.' :: rest =>
      let after := rest.dropWhile Char.isDigit
      if after.length < rest.length then return after else failure
    | rest => return rest
  | text => some text

def takeTime (text : List Char) : Option (List Char) := do
  let (_, rest) ← takePair 23 text
  let rest ← expect ':' rest
  let (_, rest) ← takePair 59 rest
  takeSeconds rest

def takeOffset : List Char → Option (List Char)
  | [] => some []
  | c :: rest =>
    if c = 'Z' ∨ c = 'z' then some rest
    else if c = '+' ∨ c = '-' then do
      let (_, rest) ← takePair 23 rest
      let rest ← expect ':' rest
      let (_, rest) ← takePair 59 rest
      return rest
    else none

def isMoment (text : List Char) : Bool :=
  match takeDate text with
  | some [] => true
  | some (mark :: rest) =>
    (mark == 'T' || mark == 't' || mark == ' ') &&
      ((takeTime rest).bind takeOffset) == some []
  | none => takeTime text == some []

def moment (text : List Char) : Node :=
  .value (.object [("moment", .string (String.ofList text))])

def ofChars (text : List Char) : Option Node :=
  match text with
  | ['t', 'r', 'u', 'e'] => some (.value (.bool true))
  | ['f', 'a', 'l', 's', 'e'] => some (.value (.bool false))
  | '0' :: 'x' :: rest => based 16 (fun c => (Draft.hexDigit? c).isSome) rest
  | '0' :: 'o' :: rest => based 8 (fun c => '0' ≤ c && c ≤ '7') rest
  | '0' :: 'b' :: rest => based 2 (fun c => c == '0' || c == '1') rest
  | text => if isMoment text then some (moment text) else decimal text

end Scalar
end Toml
end Delivery
