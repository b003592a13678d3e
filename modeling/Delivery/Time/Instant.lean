import Delivery.Time.Span

/-!
Instants: points on the calendar of universal time, to the nanosecond. A leap second is the second before
it with more than a full second of nanoseconds.
-/

namespace Delivery

structure Instant where
  seconds : Int
  nanos : Nat
deriving DecidableEq, Repr, Inhabited

structure CalendarDay where
  year : Int
  month : Nat
  day : Nat
deriving DecidableEq, Repr

namespace CalendarDay

def isLeap (year : Int) : Bool := year % 4 == 0 && (year % 100 != 0 || year % 400 == 0)

def daysIn (year : Int) (month : Nat) : Nat :=
  match month with
  | 2 => if isLeap year then 29 else 28
  | 4 | 6 | 9 | 11 => 30
  | _ => 31

def firstYear : Int := -262143

def lastYear : Int := 262142

def isValid (d : CalendarDay) : Bool :=
  firstYear ≤ d.year && d.year ≤ lastYear && 1 ≤ d.month && d.month ≤ 12 && 1 ≤ d.day &&
    d.day ≤ daysIn d.year d.month

/-- Days since the start of 1970. The year is taken from March to February, so that the leap day comes
last. -/
def number (d : CalendarDay) : Int :=
  let year := if d.month ≤ 2 then d.year - 1 else d.year
  let month := (d.month + 9) % 12
  let cycle := year / 400
  let yearOfCycle := year - cycle * 400
  let dayOfYear : Int := ((153 * month + 2) / 5 + d.day : Nat) - 1
  cycle * 146097 + yearOfCycle * 365 + yearOfCycle / 4 - yearOfCycle / 100 + dayOfYear - 719468

def ofNumber (n : Int) : CalendarDay :=
  let shifted := n + 719468
  let cycle := shifted / 146097
  let dayOfCycle := (shifted - cycle * 146097).toNat
  let yearOfCycle :=
    (dayOfCycle - dayOfCycle / 1460 + dayOfCycle / 36524 - dayOfCycle / 146096) / 365
  let dayOfYear := dayOfCycle - (365 * yearOfCycle + yearOfCycle / 4 - yearOfCycle / 100)
  let month := (5 * dayOfYear + 2) / 153
  let day := dayOfYear - (153 * month + 2) / 5 + 1
  let calendarMonth := if month < 10 then month + 3 else month - 9
  let year := (yearOfCycle : Int) + cycle * 400
  ⟨if calendarMonth ≤ 2 then year + 1 else year, calendarMonth, day⟩

end CalendarDay

namespace Instant

def total (t : Instant) : Int := t.seconds * Span.second + t.nanos

/-- The span from one instant to a later one; the empty span if it is not later. -/
def since (t earlier : Instant) : Span := ⟨(t.total - earlier.total).toNat⟩

def padded (width n : Nat) : String :=
  let digits := toString n
  "".pushn '0' (width - digits.length) ++ digits

/-- The text of a year: four digits, with a sign outside 0 to 9999. -/
def yearText (year : Int) : String :=
  if 0 ≤ year ∧ year ≤ 9999 then padded 4 year.toNat
  else (if year < 0 then "-" else "+") ++ padded 4 year.natAbs

/-- The digits behind the point of a second: none, three, six or nine. -/
def fractionText (nanos : Nat) : String :=
  if nanos = 0 then ""
  else if nanos % Span.millisecond = 0 then "." ++ padded 3 (nanos / Span.millisecond)
  else if nanos % Span.microsecond = 0 then "." ++ padded 6 (nanos / Span.microsecond)
  else "." ++ padded 9 nanos

def render (t : Instant) : String :=
  let date := CalendarDay.ofNumber (t.seconds / 86400)
  let time := (t.seconds % 86400).toNat
  let leap := if Span.second ≤ t.nanos then 1 else 0
  yearText date.year ++ "-" ++ padded 2 date.month ++ "-" ++ padded 2 date.day ++ "T" ++
    padded 2 (time / 3600) ++ ":" ++ padded 2 (time / 60 % 60) ++ ":" ++
    padded 2 (time % 60 + leap) ++ fractionText (t.nanos - leap * Span.second) ++ "Z"

end Instant
end Delivery
