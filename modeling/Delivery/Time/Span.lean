/-!
Lengths of time, in whole nanoseconds.
-/

namespace Delivery

structure Span where
  nanoseconds : Nat
deriving DecidableEq, Repr, Inhabited

namespace Span

abbrev second : Nat := 1000000000

abbrev millisecond : Nat := 1000000

abbrev microsecond : Nat := 1000

def ofSeconds (n : Nat) : Span := ⟨n * second⟩

def ofMilliseconds (n : Nat) : Span := ⟨n * millisecond⟩

def seconds (s : Span) : Nat := s.nanoseconds / second

def subsecond (s : Span) : Nat := s.nanoseconds % second

def nonzero? (s : Span) : Option Span := if s.nanoseconds = 0 then none else some s

/-- What is left of a span after a part of it; nothing if nothing is left. -/
def remainder? (s elapsed : Span) : Option Span :=
  if elapsed.nanoseconds < s.nanoseconds then some ⟨s.nanoseconds - elapsed.nanoseconds⟩ else none

/-- A number of `places` decimal digits behind the point, without trailing zeros; the point goes with
them. -/
def fraction (places value : Nat) : String :=
  let digits := toString value
  let padded := ("".pushn '0' (places - digits.length) ++ digits).toList
  let kept := (padded.reverse.dropWhile (· == '0')).reverse
  if kept.isEmpty then "" else "." ++ String.ofList kept

/-- The text of a span: in the largest unit, from seconds down to nanoseconds, of which it holds at least
one. -/
def render (s : Span) : String :=
  let n := s.nanoseconds
  if second ≤ n then toString s.seconds ++ fraction 9 s.subsecond ++ "s"
  else if millisecond ≤ n then toString (n / millisecond) ++ fraction 6 (n % millisecond) ++ "ms"
  else if microsecond ≤ n then toString (n / microsecond) ++ fraction 3 (n % microsecond) ++ "µs"
  else toString n ++ "ns"

end Span
end Delivery
