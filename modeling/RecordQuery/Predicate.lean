import RecordQuery.FieldPath
import RecordQuery.Operator

/-!
# Predicates

A `Predicate` is the structure of a query without its literals: each comparison carries the index
of a placeholder in place of the value, so no text of a literal is ever part of it.
-/

set_option autoImplicit false

namespace RecordQuery

/-- A condition on records with placeholders for the literals. -/
inductive Predicate where
  | comparison (field : FieldPath) (op : Comparator) (placeholder : Nat)
  | logical (connective : Connective) (left right : Predicate)
deriving DecidableEq, Repr

namespace Predicate

/-- The number of comparisons. -/
def size : Predicate → Nat
  | comparison .. => 1
  | logical _ left right => left.size + right.size

/-- The placeholders from left to right. -/
def placeholders : Predicate → List Nat
  | comparison _ _ placeholder => [placeholder]
  | logical _ left right => left.placeholders ++ right.placeholders

theorem length_placeholders (p : Predicate) : p.placeholders.length = p.size := by
  induction p with
  | comparison => rfl
  | logical c l r hl hr => simp [placeholders, size, hl, hr]

end Predicate
end RecordQuery
