import RecordQuery.Decimal

/-!
# Double-precision numbers

A `Double` is a finite binary number of 53 bits: a sign, a mantissa below `2 ^ 53` and an exponent
between `-1074` and `971`.  Each value has one such form, because the mantissa is at least `2 ^ 52`
unless the exponent is the least one.  Zero has a sign.

* `Double.nearest?`: the double a rational number rounds to, halves to the even mantissa, unless
  it is too large for any.
* `Double.ofDecimal?`: the double a written number stands for.
* `Double.shortest`: the shortest decimal number that stands for a double.
-/

set_option autoImplicit false

namespace RecordQuery

/-- The parts of the one form that a double has. -/
def Double.Canonical (mantissa : Nat) (exponent : Int) : Prop :=
  mantissa < 0x20000000000000 ∧ -1074 ≤ exponent ∧ exponent ≤ 971 ∧
    (0x10000000000000 ≤ mantissa ∨ exponent = -1074)

instance (mantissa : Nat) (exponent : Int) : Decidable (Double.Canonical mantissa exponent) :=
  inferInstanceAs (Decidable (_ ∧ _))

/-- The number `± mantissa * 2 ^ exponent`. -/
structure Double where
  negative : Bool
  mantissa : Nat
  exponent : Int
  canonical : Double.Canonical mantissa exponent
deriving DecidableEq, Repr

namespace Double

/-- The value without its sign. -/
def magnitude (d : Double) : Rat := d.mantissa * (2 : Rat) ^ d.exponent

/-- The value. -/
def toRat (d : Double) : Rat := signed d.negative d.magnitude

/-- Zero with a sign. -/
def zero (negative : Bool) : Double := ⟨negative, 0, -1074, by decide⟩

/-- The double with these parts, if they are in canonical form. -/
def ofParts? (negative : Bool) (mantissa : Nat) (exponent : Int) : Option Double :=
  if h : Canonical mantissa exponent then some ⟨negative, mantissa, exponent, h⟩ else none

/-! ## Rounding -/

/-- The integer nearest to `x`, and of two the even one. -/
def roundEven (x : Rat) : Int :=
  let below := x.floor
  let part := x - below
  if part < 1 / 2 ∨ (part = 1 / 2 ∧ below % 2 = 0) then below else below + 1

/-- An exponent at most that of the double nearest to `x` and at most two below it. -/
def leastExponent (x : Rat) : Int :=
  if x = 0 then -1074
  else max (-1074) (Int.ofNat x.num.natAbs.log2 - Int.ofNat x.den.log2 - 53)

/-- The double nearest to `x ≥ 0`, with a sign: the first exponent for which the rounded mantissa
is canonical. -/
def nearest? (negative : Bool) (x : Rat) : Option Double :=
  [0, 1, 2].findSome? fun (i : Int) ↦
    let exponent := leastExponent x + i
    ofParts? negative (roundEven (x / (2 : Rat) ^ exponent)).toNat exponent

/-! ## Decimal form -/

/-- The double that `d` stands for, unless it is too large.  Numbers of `10 ^ 310` and more are
beyond the largest double, and numbers below `10 ^ (-330)` are nearest to zero; their powers of ten
are not worked out. -/
def ofDecimal? (d : Decimal) : Option Double :=
  let magnitude := d.exponent + Decimal.digitCount d.coefficient
  if d.coefficient = 0 then some (zero d.negative)
  else if 310 < magnitude then none
  else if magnitude < -330 then some (zero d.negative)
  else nearest? d.negative d.magnitude

/-- The points next to the size of `d` among the multiples of `10 ^ exponent`, the nearer one
first, and of two equally near the even one. -/
def neighbours (d : Double) (exponent : Int) : List Decimal :=
  let x := d.magnitude / (10 : Rat) ^ exponent
  let below := x.floor.toNat
  let points := if roundEven x = below then [below, below + 1] else [below + 1, below]
  points.map fun n ↦ ⟨d.negative, n, exponent⟩

/-- All the digits of a double. -/
def exactDecimal (d : Double) : Decimal :=
  if 0 ≤ d.exponent then ⟨d.negative, d.mantissa * Nat.pow 2 d.exponent.toNat, 0⟩
  else ⟨d.negative, d.mantissa * Nat.pow 5 (-d.exponent).toNat, d.exponent⟩

/-- A power of ten above the size of `d`. -/
def decimalBound (d : Double) : Int :=
  let x := d.magnitude
  Int.ofNat (Decimal.digitCount x.num.natAbs) - Int.ofNat (Decimal.digitCount x.den) + 1

/-- The shortest decimal number that stands for `d`, and among those the nearest to `d`.  It lies on
the coarsest grid of powers of ten with a point that is read back as `d`, next to `d`. -/
def shortest (d : Double) : Decimal :=
  if d.mantissa = 0 then ⟨d.negative, 0, 0⟩
  else
    let grids := (List.range 19).map fun i ↦ d.decimalBound - Int.ofNat i
    let onGrid := fun exponent ↦ (d.neighbours exponent).find? fun n ↦ ofDecimal? n = some d
    (grids.findSome? onGrid).getD d.exactDecimal

end Double
end RecordQuery
