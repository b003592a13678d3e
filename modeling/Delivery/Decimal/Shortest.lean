import Delivery.Decimal.Binary64

/-!
The shortest decimal that reads back as a given binary number. For one digit, then two, and so on, the
two neighbours of the number on that decimal grid are tried; the first grid on which one of them rounds
to the number wins, and there the nearer one.
-/

namespace Delivery

/-- A decimal: `digits · 10 ^ exponent`. -/
structure Decimal where
  digits : Nat
  exponent : Int
deriving DecidableEq, Repr

namespace Decimal

def digitCount (n : Nat) : Nat := (Nat.toDigits 10 n).length

def leadingExponent (rank : Nat) : Int :=
  let value := Binary64.units rank
  let one := twoPower 1074
  if one ≤ value then (digitCount (value / one) : Int) - 1
  else -(digitCount ((one - 1) / value) : Int)

/-- A decimal `digits · 10 ^ exponent` and a magnitude given in units of 2⁻¹⁰⁷⁵, both multiplied by the
same factor so that they are whole. -/
def common (digits : Nat) (exponent : Int) (halfUnits : Nat) : Nat × Nat :=
  (digits * twoPower 1075 * tenPower exponent.toNat, halfUnits * tenPower (-exponent).toNat)

/-- The decimal rounds to the magnitude of this rank: it lies between the midpoints to the neighbours,
and at a midpoint only an even rank takes it. -/
def roundsTo (d : Decimal) (rank : Nat) : Bool :=
  let value := Binary64.units rank
  let low := common d.digits d.exponent (Binary64.units (rank - 1) + value)
  let high := common d.digits d.exponent (value + Binary64.units (rank + 1))
  if rank % 2 = 0 then low.2 ≤ low.1 && high.1 ≤ high.2 else low.2 < low.1 && high.1 < high.2

/-- Of the two neighbours of the magnitude on the grid `10 ^ exponent`, the nearer one that rounds to it;
a tie goes to the even digit. -/
def onGrid (rank : Nat) (exponent : Int) : Option Decimal :=
  let value := 2 * Binary64.units rank
  let scale := common 1 exponent value
  let below := scale.2 / scale.1
  let down : Decimal := ⟨below, exponent⟩
  let up : Decimal := ⟨below + 1, exponent⟩
  let downDistance := scale.2 - below * scale.1
  let upDistance := (below + 1) * scale.1 - scale.2
  match down.roundsTo rank, up.roundsTo rank with
  | true, true =>
    if downDistance < upDistance || (downDistance == upDistance && below % 2 == 0) then some down
    else some up
  | true, false => some down
  | false, true => some up
  | false, false => none

def stripZeros : Nat → Decimal → Decimal
  | 0, d => d
  | fuel + 1, d =>
    if d.digits ≠ 0 ∧ d.digits % 10 = 0 then stripZeros fuel ⟨d.digits / 10, d.exponent + 1⟩ else d

/-- The shortest decimal that rounds to the positive magnitude of this rank. Seventeen digits always
suffice. -/
def shortest (rank : Nat) : Decimal :=
  let first := leadingExponent rank
  let found := (List.range 17).findSome? fun (more : Nat) => onGrid rank (first - more)
  stripZeros 20 (found.getD ⟨0, 0⟩)

end Decimal
end Delivery
