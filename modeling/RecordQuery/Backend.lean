import RecordQuery.PreparedQuery

/-!
# Backends

A `Backend` makes filters of its own kind out of queries: it makes one for a comparison, and it
connects two.  Its operations may fail or have effects; both run in a monad of its choice.

`PreparedQuery.foldM` hands a query to a backend.  The left condition comes before the right one and
both before their connective, and each comparison comes with the literal its placeholder stands for.
-/

set_option autoImplicit false

namespace RecordQuery

universe u v

/-- How filters of type `φ` are made. -/
structure Backend (m : Type u → Type v) (φ : Type u) where
  /-- the filter of a comparison, given its placeholder and the literal bound to that -/
  comparison : FieldPath → Comparator → Nat → Literal → m φ
  /-- the filter of two conditions under a connective -/
  connect : Connective → φ → φ → m φ

variable {m : Type u → Type v} {φ : Type u}

/-- The filter of a predicate whose placeholders index into `bindings`. -/
def Predicate.foldM [Monad m] (b : Backend m φ) (bindings : List Literal) :
    (p : Predicate) → (∀ i ∈ p.placeholders, i < bindings.length) → m φ
  | .comparison field op i, h =>
    b.comparison field op i (bindings.get ⟨i, h i (by simp [placeholders])⟩)
  | .logical connective left right, h => do
    let l ← left.foldM b bindings fun i hi ↦ h i (by simp [placeholders, hi])
    let r ← right.foldM b bindings fun i hi ↦ h i (by simp [placeholders, hi])
    b.connect connective l r

theorem PreparedQuery.lt_length_of_mem (q : PreparedQuery) (i : Nat)
    (h : i ∈ q.predicate.placeholders) : i < q.bindings.length := by
  simpa [q.placeholders_eq] using h

/-- The filter of a query. -/
def PreparedQuery.foldM [Monad m] (b : Backend m φ) (q : PreparedQuery) : m φ :=
  q.predicate.foldM b q.bindings q.lt_length_of_mem

end RecordQuery
