import RecordQuery.Expr
import RecordQuery.Logged
import RecordQuery.Predicate

/-!
# Prepared queries

A query is prepared for execution by moving its literals out of its tree into a list of bindings;
placeholder `i` stands for binding `i`.  Groupings have done their work by then and are dropped.
The placeholders of a `PreparedQuery` are `0, 1, …` from left to right, one for each binding, and
the type says so.

* `Expr.bind`: the predicate and the literals of a tree, placeholders counted from a given number.
* `Expr.prepare`: the prepared query, reported as an event.
* `bind_logical`: the operands of a connective are bound one behind the other.
* `placeholders_of_bind`: the placeholders are consecutive.
-/

set_option autoImplicit false

namespace RecordQuery

/-- A tree with a node that is no condition. -/
inductive PrepareError where
  | notACondition (node : Expr)
deriving DecidableEq, Repr

/-- The words for a failed preparation. -/
def PrepareError.message : PrepareError → String
  | notACondition node =>
    "expected a comparison or logical expression, found a " ++ node.nodeName

/-- A predicate and the literals its placeholders stand for. -/
structure PreparedQuery where
  predicate : Predicate
  bindings : List Literal
  placeholders_eq : predicate.placeholders = List.range bindings.length
deriving DecidableEq, Repr

namespace Expr

/-- The predicate of a tree with placeholders from `first` on, and its literals from left to
right. -/
def bind (first : Nat) : Expr → Except PrepareError (Predicate × List Literal)
  | comparison path op v => .ok (.comparison path op first, [v])
  | logical connective left right => do
    let l ← left.bind first
    let r ← right.bind (first + l.2.length)
    return (.logical connective l.1 r.1, l.2 ++ r.2)
  | grouping inner => inner.bind first
  | number n => .error (.notACondition (number n))
  | string text => .error (.notACondition (string text))
  | field path => .error (.notACondition (field path))
  | arithmetic op left right position =>
    .error (.notACondition (arithmetic op left right position))

/-- Two operands are bound one behind the other. -/
theorem bind_logical {connective : Connective} {left right : Expr} {first : Nat}
    {p : Predicate} {values : List Literal}
    (h : (logical connective left right).bind first = .ok (p, values)) :
    ∃ l leftValues r rightValues, left.bind first = .ok (l, leftValues) ∧
      right.bind (first + leftValues.length) = .ok (r, rightValues) ∧
        p = .logical connective l r ∧ values = leftValues ++ rightValues := by
  rw [bind] at h
  cases hl : left.bind first with
  | error e => rw [hl] at h; cases h
  | ok l =>
    cases hr : right.bind (first + l.2.length) with
    | error e =>
      rw [hl] at h
      simp only [Bind.bind, Except.bind] at h
      rw [hr] at h
      cases h
    | ok r =>
      rw [hl] at h
      simp only [Bind.bind, Except.bind] at h
      rw [hr] at h
      cases h
      exact ⟨l.1, l.2, r.1, r.2, rfl, hr, rfl, rfl⟩

/-- The placeholders of a tree are consecutive, one for each literal. -/
theorem placeholders_of_bind {e : Expr} {first : Nat} {p : Predicate} {vs : List Literal}
    (h : e.bind first = .ok (p, vs)) : p.placeholders = List.range' first vs.length := by
  induction e generalizing first p vs with
  | comparison path op v => cases h; rfl
  | grouping inner ih => exact ih h
  | logical connective left right ihl ihr =>
    obtain ⟨l, leftValues, r, rightValues, hl, hr, rfl, rfl⟩ := bind_logical h
    rw [Predicate.placeholders, ihl hl, ihr hr, List.length_append, List.range'_append_1]
  | number | string | field | arithmetic => cases h

/-- The query that a tree is. -/
def prepared (e : Expr) : Except PrepareError PreparedQuery :=
  match h : e.bind 0 with
  | .error err => .error err
  | .ok (p, vs) =>
    .ok ⟨p, vs, by rw [placeholders_of_bind h, List.range_eq_range']⟩

/-- The query that a tree is, reported when it is one. -/
def prepare (e : Expr) : Logged PrepareError PreparedQuery := do
  let q ← .ofExcept e.prepared
  .report (.queryCompiled q.predicate.size q.bindings.length)
  return q

end Expr
end RecordQuery
