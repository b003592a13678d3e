import Delivery.Decimal.Shortest

/-!
The text of a binary number. A layout says between which exponents the point is set and how the exponent
is written outside them.
-/

namespace Delivery

structure Layout where
  firstFixed : Int
  lastFixed : Int
  exponentMark : String
  positiveSign : String
  negativeSign : String
  wholeEnd : String

namespace Layout

/-- The point is set for exponents from -5 to 15, a whole number ends in `.0`, and an exponent always has
a sign and as many digits as it needs. -/
def json : Layout := ⟨-5, 15, "e", "+", "-", ".0"⟩

def magnitude (layout : Layout) (d : Decimal) : String :=
  let digits := toString d.digits
  let first := d.exponent + (digits.length : Int) - 1
  if layout.firstFixed ≤ first ∧ first ≤ layout.lastFixed then
    if 0 ≤ d.exponent then
      digits ++ "".pushn '0' d.exponent.toNat ++ layout.wholeEnd
    else if 0 ≤ first then
      (digits.take (first.toNat + 1)).toString ++ "." ++ (digits.drop (first.toNat + 1)).toString
    else
      "0." ++ "".pushn '0' ((-first).toNat - 1) ++ digits
  else
    let mantissa :=
      if digits.length = 1 then digits
      else (digits.take 1).toString ++ "." ++ (digits.drop 1).toString
    let sign := if first < 0 then layout.negativeSign else layout.positiveSign
    mantissa ++ layout.exponentMark ++ sign ++ toString first.natAbs

def render (layout : Layout) (x : Binary64) : String :=
  let sign := if x.negative then "-" else ""
  let magnitude := if x.rank = 0 then "0" ++ layout.wholeEnd else layout.magnitude (.shortest x.rank)
  sign ++ magnitude

end Layout
end Delivery
