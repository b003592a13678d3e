import Delivery.Decimal.Layout

/-!
JSON numbers. A number without a point or an exponent that fits a 64-bit word, signed or not, is an
integer; every other number is a binary floating-point number. `1` and `1.0` are different numbers.
-/

namespace Delivery

inductive Number where
  | integer (value : Int)
  | real (value : Binary64)
deriving DecidableEq, Repr

namespace Number

/-- The least and the greatest integer that is kept as one. -/
def leastInteger : Int := -(twoPower 63 : Int)

def greatestInteger : Int := (twoPower 64 : Int) - 1

def same : Number → Number → Bool
  | integer m, integer n => m == n
  | real x, real y => x.same y
  | _, _ => false

def render : Number → String
  | integer n => toString n
  | real x => Layout.json.render x

/-! ### Reading -/

structure Numeral where
  negative : Bool
  whole : List Nat
  fraction : Option (List Nat)
  exponent : Option (Bool × List Nat)

def ofDigits (digits : List Nat) : Nat := digits.foldl (fun n d => n * 10 + d) 0

structure Significand where
  value : Nat
  /-- Digits taken. -/
  taken : Nat
  left : Nat

def Significand.extend (value : Nat) : List Nat → Significand
  | [] => ⟨value, 0, 0⟩
  | d :: rest =>
    if value * 10 + d < twoPower 64 then
      let s := Significand.extend (value * 10 + d) rest
      { s with taken := s.taken + 1 }
    else ⟨value, 0, rest.length + 1⟩

/-- An exponent of more digits than a signed 32-bit word holds is taken for endless. -/
def exponentLimit : Nat := twoPower 31 - 1

/-- `rank · 10 ^ exponent`, one rounded operation with a power of ten at a time. No power above
`10 ^ 308` is finite: a larger positive exponent gives nothing, a smaller negative one is taken in
steps; `fuel` bounds them, since the third one leaves zero. -/
def scale : Nat → Nat → Int → Option Nat
  | 0, _, _ => some 0
  | fuel + 1, rank, exponent =>
    if exponent.natAbs ≤ 308 then
      if 0 ≤ exponent then
        some (Binary64.timesRank rank (Binary64.tenPowerRank exponent.toNat))
      else some (Binary64.overRank rank (Binary64.tenPowerRank (-exponent).toNat))
    else if rank = 0 then some 0
    else if 0 ≤ exponent then none
    else scale fuel (Binary64.overRank rank (Binary64.tenPowerRank 308)) (exponent + 308)

/-- The floating-point number of a numeral: as many leading digits as fit a 64-bit word, scaled by a
power of ten. Nothing for a number that is too large. -/
def Numeral.real (n : Numeral) : Option Binary64 :=
  let whole := Significand.extend 0 n.whole
  let all := Significand.extend whole.value (n.fraction.getD [])
  let shift : Int := (whole.left : Int) - (all.taken : Int)
  let magnitude : Option Nat :=
    match n.exponent with
    | none => scale 8 (Binary64.nearestRank all.value 1) shift
    | some (below, digits) =>
      let size := ofDigits digits
      if exponentLimit < size then
        if all.value ≠ 0 ∧ below = false then none else some 0
      else scale 8 (Binary64.nearestRank all.value 1) (if below then shift - size else shift + size)
  magnitude.bind fun rank =>
    if h : rank < Binary64.rankLimit then some ⟨n.negative, rank, h⟩ else none

def ofNumeral (n : Numeral) : Option Number :=
  match n.fraction, n.exponent with
  | none, none =>
    let value := ofDigits n.whole
    if n.negative then
      if value ≠ 0 ∧ value ≤ twoPower 63 then some (integer (-value)) else n.real.map real
    else if value < twoPower 64 then some (integer value) else n.real.map real
  | _, _ => n.real.map real

end Number
end Delivery
