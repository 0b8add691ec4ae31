import Fleet.Decimal.Shortest

/-!
# Numerals of any length

The double nearest to the number that a numeral denotes.  Magnitudes far outside
the range of doubles are told apart by their digits alone, without the powers of ten.
-/

namespace Fleet.Decimal

namespace Numeral

/-- The number of digits before the decimal point. -/
def magnitude (n : Numeral) : Int := (width n.digits : Int) + n.exponent

/-- Whether the number rounds beyond the largest double. -/
def overflows (n : Numeral) : Bool :=
  if n.digits == 0 || n.magnitude < 300 then false
  else if n.magnitude > 320 then true
  else
    n.digits * Nat.pow 10 n.exponent.toNat ≥
      (Nat.pow 2 1024 - Nat.pow 2 970) * Nat.pow 10 (-n.exponent).toNat

/-- The nearest double of a number that does not overflow. -/
def toFloat (n : Numeral) : Float :=
  if n.digits == 0 || n.magnitude < -400 then 0.0
  else Float.ofScientific n.digits (n.exponent < 0) n.exponent.natAbs

end Numeral

end Fleet.Decimal
