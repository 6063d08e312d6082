import RecordQuery.Integer
import RecordQuery.Json.Value

/-!
# The order of numbers

A stored number is set against an integer by its written form: an integer is written as it is, and a
double with its shortest digits.  A written form that 96 bits and 28 decimal places hold is compared
exactly.  Any other is compared as a double, the integer rounded to a double as well; numbers that
large or that close to zero are on the same side of every integer either way.
-/

set_option autoImplicit false

namespace RecordQuery

/-- Whether the number, written with at most 28 decimal places, has digits of at most 96 bits. -/
def Decimal.FitsWord (d : Decimal) : Prop :=
  if 0 ≤ d.exponent then
    d.coefficient * Nat.pow 10 d.exponent.toNat < 0x1000000000000000000000000
  else d.coefficient < 0x1000000000000000000000000 ∧ -28 ≤ d.exponent

instance (d : Decimal) : Decidable d.FitsWord := by
  unfold Decimal.FitsWord
  infer_instance

/-- The integer rounded to a double. -/
def Double.ofInt (n : Int) : Double := (Double.nearest? (n < 0) n.natAbs).getD (zero false)

namespace Json
namespace Number

/-- The number as it is written. -/
def written : Number → Decimal
  | integer value _ => .ofInt value
  | double value => value.shortest

/-- The number as a double. -/
def toDouble : Number → Double
  | integer value _ => .ofInt value
  | double value => value

/-- How the number compares with an integer. -/
def compare (n : Number) (i : Integer) : Ordering :=
  if n.written.FitsWord then compareOfLessAndEq n.written.toRat i.toInt
  else compareOfLessAndEq n.toDouble.toRat (Double.ofInt i.toInt).toRat

end Number
end Json
end RecordQuery
