import Delivery.Decimal.Power

/-!
Finite binary floating-point numbers of 64 bits, held by sign and rank: the magnitudes in ascending
order are numbered from zero, so that neighbours differ by one. All arithmetic is exact arithmetic on
natural numbers followed by one rounding, to the nearest magnitude and on a tie to the even rank.
-/

namespace Delivery

def Binary64.rankLimit : Nat := 2047 * twoPower 52

structure Binary64 where
  negative : Bool
  /-- How many magnitudes are smaller. -/
  rank : Nat
  rank_lt : rank < Binary64.rankLimit
deriving DecidableEq, Repr

namespace Binary64

def zero : Binary64 := ⟨false, 0, by decide⟩

/-- The magnitude of a rank, in units of 2⁻¹⁰⁷⁴. -/
def units (rank : Nat) : Nat :=
  let exponent := rank / twoPower 52
  let fraction := rank % twoPower 52
  if exponent = 0 then fraction else (twoPower 52 + fraction) * twoPower (exponent - 1)

def roundDiv (numerator denominator : Nat) : Nat :=
  let quotient := numerator / denominator
  let twice := 2 * (numerator % denominator)
  if twice < denominator then quotient
  else if denominator < twice then quotient + 1
  else quotient + quotient % 2

/-- The rank nearest to a fraction. It reaches `rankLimit` when the fraction is too large. -/
def nearestRank (numerator denominator : Nat) : Nat :=
  let scaled := numerator * twoPower 1074
  let whole := scaled / denominator
  if whole < twoPower 53 then roundDiv scaled denominator
  else
    let shift := Nat.log2 whole - 52
    shift * twoPower 52 + roundDiv scaled (denominator * twoPower shift)

def tenPowerRank (exponent : Nat) : Nat := nearestRank (tenPower exponent) 1

def timesRank (a b : Nat) : Nat := nearestRank (units a * units b) (twoPower 2148)

def overRank (a b : Nat) : Nat := nearestRank (units a) (units b)

/-- The numbers are equal as numbers: a negative zero equals a positive one. -/
def same (x y : Binary64) : Bool :=
  x.rank == y.rank && (x.negative == y.negative || x.rank == 0)

end Binary64
end Delivery
