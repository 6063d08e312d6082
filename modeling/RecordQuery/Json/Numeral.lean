import RecordQuery.Json.Value

/-!
# JSON numbers

A number has an integer part without leading zeros, and may have a fraction and an exponent;
`Json.Numeral.scan` reads its parts.  Without the last two it stays an integer when 64 bits hold
it.  Every other number is the double next to it, minus zero included, and one that is too large for
any double is refused.  Readers that only multiply by a power of ten may miss that double.

`Json.Number.text` writes a number.  A double is written with the fewest digits that are read back
as the same double: with a point, when its leading digit stands for `10 ^ (-5)` up to `10 ^ 15`, and
with an exponent otherwise.
-/

set_option autoImplicit false

namespace RecordQuery
namespace Json

/-! ## Reading -/

/-- The parts of a written number. -/
structure Numeral where
  negative : Bool
  /-- the digits before the point -/
  whole : List Char
  /-- the digits behind the point -/
  fraction : List Char
  exponent : Int
  /-- whether there is neither a fraction nor an exponent -/
  isInteger : Bool
deriving DecidableEq, Repr

namespace Numeral

/-- The digits at the front, which must be some, and the rest. -/
def digits? (cs : List Char) : Option (List Char × List Char) :=
  match cs.takeWhile Char.isDigit with
  | [] => none
  | d :: ds => some (d :: ds, cs.dropWhile Char.isDigit)

/-- The digits of an integer part, which starts with no zero unless it is zero. -/
def whole? (cs : List Char) : Option (List Char × List Char) :=
  match digits? cs with
  | some ('0' :: _ :: _, _) => none
  | r => r

/-- The digits behind a point, if there is a point. -/
def fraction? : List Char → Option (List Char × List Char)
  | '.' :: cs => digits? cs
  | cs => some ([], cs)

/-- The sign at the front of an exponent, and the rest. -/
def exponentSign : List Char → Bool × List Char
  | '-' :: cs => (true, cs)
  | '+' :: cs => (false, cs)
  | cs => (false, cs)

/-- The digits read as a natural number. -/
def natOf (ds : List Char) : Nat := Nat.ofDigitChars 10 ds 0

/-- The exponent, if there is one, and the rest. -/
def exponent? : List Char → Option (Option Int × List Char)
  | [] => some (none, [])
  | c :: cs =>
    if c = 'e' ∨ c = 'E' then
      (digits? (exponentSign cs).2).map fun r ↦
        (some (if (exponentSign cs).1 then -Int.ofNat (natOf r.1) else Int.ofNat (natOf r.1)), r.2)
    else some (none, c :: cs)

/-- The number at the front without its sign, and the rest. -/
def unsigned? (negative : Bool) (cs : List Char) : Option (Numeral × List Char) := do
  let (whole, cs) ← whole? cs
  let (fraction, cs) ← fraction? cs
  let (exponent, cs) ← exponent? cs
  return (⟨negative, whole, fraction, exponent.getD 0, fraction.isEmpty && exponent.isNone⟩, cs)

/-- The number at the front, and the rest. -/
def scan : List Char → Option (Numeral × List Char)
  | '-' :: cs => unsigned? true cs
  | cs => unsigned? false cs

/-- The number as written. -/
def toDecimal (n : Numeral) : Decimal :=
  ⟨n.negative, natOf (n.whole ++ n.fraction), n.exponent - n.fraction.length⟩

/-- The integer that is written, unless it is minus zero or no integer. -/
def toInt? (n : Numeral) : Option Int :=
  if n.isInteger then
    let value := natOf n.whole
    if n.negative then if value = 0 then none else some (-Int.ofNat value)
    else some (Int.ofNat value)
  else none

/-- The number that is written: an integer where 64 bits hold it, else a double. -/
def toNumber? (n : Numeral) : Option Number :=
  match n.toInt?.bind Number.ofInt? with
  | some m => some m
  | none => (Double.ofDecimal? n.toDecimal).map .double

theorem length_of_digits? {cs ds rest : List Char} (h : digits? cs = some (ds, rest)) :
    rest.length < cs.length := by
  unfold digits? at h
  split at h
  · cases h
  · rename_i d ds' hd
    cases h
    have := congrArg List.length (List.takeWhile_append_dropWhile (p := Char.isDigit) (l := cs))
    rw [hd, List.length_append, List.length_cons] at this
    omega

theorem length_of_whole? {cs ds rest : List Char} (h : whole? cs = some (ds, rest)) :
    rest.length < cs.length := by
  unfold whole? at h
  split at h
  · cases h
  · exact length_of_digits? h

theorem length_of_fraction? {cs ds rest : List Char} (h : fraction? cs = some (ds, rest)) :
    rest.length ≤ cs.length := by
  unfold fraction? at h
  split at h
  · exact Nat.le_succ_of_le (Nat.le_of_lt (length_of_digits? h))
  · cases h; exact Nat.le_refl _

theorem length_exponentSign (cs : List Char) : (exponentSign cs).2.length ≤ cs.length := by
  unfold exponentSign
  split <;> simp

theorem length_of_exponent? {cs rest : List Char} {e : Option Int}
    (h : exponent? cs = some (e, rest)) : rest.length ≤ cs.length := by
  unfold exponent? at h
  split at h
  · cases h; exact Nat.le_refl _
  · rename_i c cs'
    split at h
    · obtain ⟨r, hr, he⟩ := Option.map_eq_some_iff.mp h
      cases he
      have h1 := length_of_digits? hr
      have h2 := length_exponentSign cs'
      simp only [List.length_cons]
      omega
    · cases h; exact Nat.le_refl _

theorem length_of_unsigned? {negative : Bool} {cs rest : List Char} {n : Numeral}
    (h : unsigned? negative cs = some (n, rest)) : rest.length < cs.length := by
  simp only [unsigned?, Option.bind_eq_bind, Option.bind_eq_some_iff, Option.pure_def,
    Option.some.injEq, Prod.mk.injEq, Prod.exists] at h
  obtain ⟨_, _, h1, _, _, h2, _, _, h3, _, rfl⟩ := h
  have := length_of_whole? h1
  have := length_of_fraction? h2
  have := length_of_exponent? h3
  omega

theorem length_of_scan {cs rest : List Char} {n : Numeral} (h : scan cs = some (n, rest)) :
    rest.length < cs.length := by
  unfold scan at h
  split at h
  · exact Nat.lt_succ_of_lt (length_of_unsigned? h)
  · exact length_of_unsigned? h

end Numeral

/-! ## Writing -/

/-- The digits of `n`. -/
def digits (n : Nat) : List Char := Nat.toDigits 10 n

/-- An integer with its sign. -/
def signedDigits (n : Int) : List Char :=
  if n < 0 then '-' :: digits n.natAbs else digits n.natAbs

/-- The powers of ten of a leading digit for which a double is written with a point and no
exponent. -/
def isPositional (leading : Int) : Bool := -5 ≤ leading ∧ leading ≤ 15

/-- The digits `ds`, the last of which stands for `10 ^ exponent`, with a point and at least one
digit on either side of it. -/
def positional (ds : List Char) (exponent : Int) : List Char :=
  let whole := (ds.length : Int) + exponent
  if 0 ≤ exponent then ds ++ List.replicate exponent.toNat '0' ++ ['.', '0']
  else if 0 < whole then ds.take whole.toNat ++ '.' :: ds.drop whole.toNat
  else '0' :: '.' :: List.replicate (-whole).toNat '0' ++ ds

/-- The digits `ds`, a point behind the first of them if there are more, with an exponent. -/
def scientific (ds : List Char) (leading : Int) : List Char :=
  let mantissa := match ds with
    | [] => []
    | [d] => [d]
    | d :: ds => d :: '.' :: ds
  mantissa ++ 'e' :: (if leading < 0 then '-' else '+') :: digits leading.natAbs

/-- A decimal number written as a double is. -/
def decimalText (d : Decimal) : List Char :=
  let ds := digits d.coefficient
  let leading := (ds.length : Int) - 1 + d.exponent
  let unsigned := if isPositional leading then positional ds d.exponent else scientific ds leading
  if d.negative then '-' :: unsigned else unsigned

/-- The text of a number. -/
def Number.text : Number → List Char
  | .integer value _ => signedDigits value
  | .double value => decimalText value.shortest

end Json
end RecordQuery
