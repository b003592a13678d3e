/-! Powers of two and of ten among the natural numbers. -/

namespace Delivery

def twoPower (exponent : Nat) : Nat := Nat.pow 2 exponent

def tenPower (exponent : Nat) : Nat := Nat.pow 10 exponent

end Delivery
