/-!
# Decimal numbers

A `Decimal` is a number as it is written: a sign, the digits read as one natural number, and the
power of ten they are multiplied with.  Numbers that differ in how they are written may be equal in
value; the value is `Decimal.toRat`.
-/

set_option autoImplicit false

namespace RecordQuery

/-- The number `± coefficient * 10 ^ exponent`. -/
structure Decimal where
  negative : Bool
  coefficient : Nat
  exponent : Int
deriving DecidableEq, Repr

/-- `x` with the sign that `negative` tells. -/
def signed (negative : Bool) (x : Rat) : Rat := if negative then -x else x

namespace Decimal

/-- The value without its sign. -/
def magnitude (d : Decimal) : Rat := d.coefficient * (10 : Rat) ^ d.exponent

/-- The value. -/
def toRat (d : Decimal) : Rat := signed d.negative d.magnitude

/-- The decimal form of an integer. -/
def ofInt (n : Int) : Decimal := ⟨n < 0, n.natAbs, 0⟩

/-- The number of digits `n` is written with. -/
def digitCount (n : Nat) : Nat := (Nat.toDigits 10 n).length

end Decimal
end RecordQuery
