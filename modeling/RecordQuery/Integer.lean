/-!
# Integers of 64 bits

Integer literals and the results of arithmetic are signed integers of 64 bits.  Computations are
carried out in `Int` and brought back by `Integer.ofInt?`, which refuses whatever does not fit, so
nothing ever wraps around.

* `Integer.ofInt?_eq_some`: `ofInt? n` is the integer with value `n`.
* `Integer.ofInt?_eq_none`: it is refused exactly when `n` is out of range.
-/

set_option autoImplicit false

namespace RecordQuery

/-- A signed integer of 64 bits. -/
abbrev Integer := Int64

namespace Integer

/-- `n` lies between `-2 ^ 63` and `2 ^ 63 - 1`. -/
def InRange (n : Int) : Prop := -0x8000000000000000 ≤ n ∧ n < 0x8000000000000000

instance (n : Int) : Decidable (InRange n) :=
  inferInstanceAs (Decidable (_ ∧ _))

/-- The integer with value `n`, when there is one. -/
def ofInt? (n : Int) : Option Integer :=
  if InRange n then some (Int64.ofInt n) else none

theorem inRange_toInt (i : Integer) : InRange i.toInt :=
  ⟨i.le_toInt, i.toInt_lt⟩

theorem ofInt?_eq_some {n : Int} {i : Integer} : ofInt? n = some i ↔ i.toInt = n := by
  unfold ofInt?
  split
  · rename_i h
    rw [Option.some.injEq]
    constructor
    · rintro rfl; exact Int64.toInt_ofInt_of_le h.1 h.2
    · rintro rfl; exact Int64.ofInt_toInt i
  · rename_i h
    refine ⟨nofun, ?_⟩
    rintro rfl
    exact absurd (inRange_toInt i) h

theorem ofInt?_eq_none {n : Int} : ofInt? n = none ↔ ¬ InRange n := by
  unfold ofInt?
  split <;> simp_all

end Integer
end RecordQuery
