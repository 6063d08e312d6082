import RecordQuery.Expr
import RecordQuery.Logged

/-!
# Values of arithmetic expressions

`Expr.value` works a tree out from the leaves up, the left operand before the right one.  Every
intermediate result has to be an integer of 64 bits, and the first failure is the answer.

* `EvaluationError`: what can fail, and where.
* `apply_of_divide_zero`, `apply_of_inRange`, `apply_of_not_inRange`: one operation, exactly.
* `Expr.evaluate`: the value, reported as an event when there is one.
* `value_arithmetic`, `value_of_left_error`, `value_of_right_error`: an operation, by its operands.
-/

set_option autoImplicit false

namespace RecordQuery

/-- Why a tree has no value. -/
inductive EvaluationError where
  /-- the right operand of the division at `position` is zero -/
  | divisionByZero (position : Nat)
  /-- the result of the operator at `position` does not fit in 64 bits -/
  | overflow (position : Nat)
  /-- `node` is no part of an arithmetic expression -/
  | notArithmetic (node : Expr)
deriving DecidableEq, Repr

/-- The words for a failed evaluation. -/
def EvaluationError.message : EvaluationError → String
  | divisionByZero position => "division by zero at position " ++ toString position
  | overflow position => "integer overflow at position " ++ toString position
  | notArithmetic node => "cannot evaluate a " ++ node.nodeName ++ " as arithmetic"

namespace ArithmeticOp

/-- The operator on unbounded integers; division truncates toward zero. -/
def exact : ArithmeticOp → Int → Int → Int
  | add, a, b => a + b
  | subtract, a, b => a - b
  | multiply, a, b => a * b
  | divide, a, b => a.tdiv b

/-- The operator at `position` on integers of 64 bits. -/
def apply (op : ArithmeticOp) (left right : Integer) (position : Nat) :
    Except EvaluationError Integer :=
  if op = .divide ∧ right = 0 then .error (.divisionByZero position)
  else
    match Integer.ofInt? (op.exact left.toInt right.toInt) with
    | some value => .ok value
    | none => .error (.overflow position)

variable {op : ArithmeticOp} {left right : Integer} (position : Nat)

theorem apply_of_divide_zero (h : op = .divide ∧ right = 0) :
    op.apply left right position = .error (.divisionByZero position) := by
  rw [apply, if_pos h]

theorem apply_of_inRange (h : ¬ (op = .divide ∧ right = 0))
    (hrange : Integer.InRange (op.exact left.toInt right.toInt)) :
    ∃ v, op.apply left right position = .ok v ∧ v.toInt = op.exact left.toInt right.toInt := by
  rw [apply, if_neg h]
  cases hv : Integer.ofInt? (op.exact left.toInt right.toInt) with
  | none => exact absurd hrange (Integer.ofInt?_eq_none.mp hv)
  | some v => exact ⟨v, rfl, Integer.ofInt?_eq_some.mp hv⟩

theorem apply_of_not_inRange (h : ¬ (op = .divide ∧ right = 0))
    (hrange : ¬ Integer.InRange (op.exact left.toInt right.toInt)) :
    op.apply left right position = .error (.overflow position) := by
  rw [apply, if_neg h, Integer.ofInt?_eq_none.mpr hrange]

end ArithmeticOp

namespace Expr

/-- The value of a tree. -/
def value : Expr → Except EvaluationError Integer
  | number n => .ok n
  | grouping inner => inner.value
  | arithmetic op left right position => do
    let l ← left.value
    let r ← right.value
    op.apply l r position
  | string text => .error (.notArithmetic (string text))
  | field path => .error (.notArithmetic (field path))
  | comparison path op v => .error (.notArithmetic (comparison path op v))
  | logical connective left right => .error (.notArithmetic (logical connective left right))

/-- The value of a tree, reported when there is one. -/
def evaluate (e : Expr) : Logged EvaluationError Integer := do
  let v ← .ofExcept e.value
  .report .arithmeticEvaluated
  return v

/-- Two operands that have values are worked out with them. -/
theorem value_arithmetic {op : ArithmeticOp} {left right : Expr} {position : Nat} {l r : Integer}
    (hl : left.value = .ok l) (hr : right.value = .ok r) :
    (arithmetic op left right position).value = op.apply l r position := by
  rw [value, hl, hr]
  rfl

/-- What fails on the left is the answer, whatever stands on the right. -/
theorem value_of_left_error {op : ArithmeticOp} {left right : Expr} {position : Nat}
    {err : EvaluationError} (hl : left.value = .error err) :
    (arithmetic op left right position).value = .error err := by
  rw [value, hl]
  rfl

theorem value_of_right_error {op : ArithmeticOp} {left right : Expr} {position : Nat}
    {l : Integer} {err : EvaluationError} (hl : left.value = .ok l)
    (hr : right.value = .error err) :
    (arithmetic op left right position).value = .error err := by
  rw [value, hl, hr]
  rfl

/-- The event makes no difference to the value. -/
theorem result_evaluate (e : Expr) : e.evaluate.result = e.value := by
  rw [evaluate, Logged.result_bind]
  cases e.value <;> rfl

end Expr
end RecordQuery
