import RecordQuery.Backend
import Mathlib.Data.List.Nodup

/-!
# What preparing a query keeps

Preparation moves the literals of a tree into bindings and drops the groupings, and nothing else is
lost.  The other direction says so: `Predicate.fill` puts the bindings back, and what comes out is
the tree that went in, without its groupings.

A tree built by hand need not be a query.  What matters is the tree down to its *leaves*, the first
nodes on the way from the root that are neither connectives nor groupings.  Every leaf has to be a
comparison, and the first one that is not is reported.

* `Expr.leaves`, `Expr.literals`: the leaves from left to right, and what is compared with at them.
* `Expr.ungrouped`, `Predicate.fill`: the tree without its groupings, and how a predicate becomes
  that tree again.
* `bind_of_offender`, `bind_of_leaves`: the two outcomes of binding, from any placeholder on.
* `fill_of_bind`: bindings go back to where they come from.
* `translates_of_bind`: what a query keeps of its tree.
* `prepare_translates`: every tree is translated, or refused for its first leaf that is no
  comparison.
-/

set_option autoImplicit false

namespace RecordQuery

/-! ## What a tree asks -/

namespace Expr

/-- Whether the root is a comparison. -/
def isComparison : Expr → Bool
  | comparison .. => true
  | _ => false

/-- The literal that the root compares with. -/
def literal? : Expr → Option Literal
  | comparison _ _ value => some value
  | _ => none

/-- The nodes reached from the root through connectives and groupings alone, from left to right. -/
def leaves : Expr → List Expr
  | logical _ left right => left.leaves ++ right.leaves
  | grouping inner => inner.leaves
  | number n => [number n]
  | string text => [string text]
  | field path => [field path]
  | arithmetic op left right position => [arithmetic op left right position]
  | comparison path op value => [comparison path op value]

/-- The literals at the leaves, from left to right. -/
def literals (e : Expr) : List Literal := e.leaves.filterMap literal?

/-- The first leaf that is no comparison. -/
def offender? (e : Expr) : Option Expr := e.leaves.find? fun leaf ↦ !leaf.isComparison

/-- The tree without its groupings. -/
def ungrouped : Expr → Expr
  | grouping inner => inner.ungrouped
  | logical connective left right => logical connective left.ungrouped right.ungrouped
  | arithmetic op left right position => arithmetic op left.ungrouped right.ungrouped position
  | number n => number n
  | string text => string text
  | field path => field path
  | comparison path op value => comparison path op value

theorem leaves_ne_nil (e : Expr) : e.leaves ≠ [] := by
  induction e with
  | logical connective left right ihl ihr => exact List.append_ne_nil_of_left_ne_nil ihl _
  | grouping inner ih => exact ih
  | number | string | field | arithmetic | comparison => exact List.cons_ne_nil _ _

theorem offender?_logical (connective : Connective) (left right : Expr) :
    (logical connective left right).offender? = left.offender?.or right.offender? :=
  List.find?_append

theorem literals_logical (connective : Connective) (left right : Expr) :
    (logical connective left right).literals = left.literals ++ right.literals :=
  List.filterMap_append

/-- Every leaf has its literal, unless one of them is no comparison. -/
theorem length_literals {e : Expr} (h : e.offender? = none) :
    e.literals.length = e.leaves.length := by
  rw [literals, List.filterMap_length_eq_length]
  intro leaf hleaf
  have hcomparison := List.find?_eq_none.mp h leaf hleaf
  cases leaf <;> first | rfl | exact absurd rfl hcomparison

/-- The offender is called by a name of its own, not by that of a node that may be there. -/
theorem nodeName_of_offender {e node : Expr} (h : e.offender? = some node) :
    node.nodeName ∉ ["grouping", "comparison", "logical expression"] := by
  induction e with
  | logical connective left right ihl ihr =>
    rw [offender?_logical, Option.or_eq_some_iff] at h
    rcases h with h | ⟨-, h⟩
    · exact ihl h
    · exact ihr h
  | grouping inner ih => exact ih h
  | comparison => cases h
  | number | string | field | arithmetic => cases h; simp [nodeName]

/-! ## Binding -/

/-- Operands that can be bound one behind the other are bound under a connective. -/
theorem bind_logical_of_bind {left right : Expr} {first : Nat} {l r : Predicate}
    {leftValues rightValues : List Literal} (connective : Connective)
    (hl : left.bind first = .ok (l, leftValues))
    (hr : right.bind (first + leftValues.length) = .ok (r, rightValues)) :
    (logical connective left right).bind first =
      .ok (.logical connective l r, leftValues ++ rightValues) := by
  rw [bind, hl]
  simp only [Bind.bind, Except.bind]
  rw [hr]
  rfl

/-- A tree whose leaves are comparisons is bound to its literals. -/
theorem bind_of_leaves {e : Expr} (h : e.offender? = none) (first : Nat) :
    ∃ p, e.bind first = .ok (p, e.literals) := by
  induction e generalizing first with
  | comparison path op value => exact ⟨_, rfl⟩
  | logical connective left right ihl ihr =>
    rw [offender?_logical, Option.or_eq_none_iff] at h
    obtain ⟨l, hl⟩ := ihl h.1 first
    obtain ⟨r, hr⟩ := ihr h.2 (first + left.literals.length)
    rw [literals_logical]
    exact ⟨_, bind_logical_of_bind connective hl hr⟩
  | grouping inner ih => exact ih h first
  | number | string | field | arithmetic => cases h

/-- The first leaf that is no comparison is what binding fails for.  It may stand in the right
operand, and then the left operand is bound before. -/
theorem bind_of_offender {e node : Expr} (h : e.offender? = some node) (first : Nat) :
    e.bind first = .error (.notACondition node) := by
  induction e generalizing first with
  | comparison => cases h
  | logical connective left right ihl ihr =>
    rw [offender?_logical, Option.or_eq_some_iff] at h
    rcases h with h | ⟨hleft, h⟩
    · rw [bind, ihl h first]
      rfl
    · obtain ⟨l, hl⟩ := bind_of_leaves hleft first
      rw [bind, hl]
      simp only [Bind.bind, Except.bind]
      rw [ihr h]
  | grouping inner ih => exact ih h first
  | number | string | field | arithmetic => cases h; rfl

end Expr

/-! ## Putting the bindings back -/

/-- The predicate with each placeholder replaced by what it stands for, if there is such a
binding. -/
def Predicate.fill (bindings : List Literal) : Predicate → Option Expr
  | comparison path op i => bindings[i]?.map (.comparison path op)
  | logical connective left right => do
    let l ← left.fill bindings
    let r ← right.fill bindings
    return .logical connective l r

/-- The bindings of a tree may stand anywhere in a list, as long as its placeholders are counted
from there. -/
theorem fill_of_bind {e : Expr} {p : Predicate} {values : List Literal}
    (before after : List Literal) (h : e.bind before.length = .ok (p, values)) :
    p.fill (before ++ values ++ after) = some e.ungrouped := by
  induction e generalizing p values before after with
  | comparison path op value =>
    cases h
    have hget : (before ++ [value] ++ after)[before.length]? = some value := by simp
    rw [Predicate.fill, hget]
    rfl
  | logical connective left right ihl ihr =>
    obtain ⟨l, leftValues, r, rightValues, hl, hr, rfl, rfl⟩ := Expr.bind_logical h
    rw [← List.length_append] at hr
    have hleft := ihl before (rightValues ++ after) hl
    have hright := ihr (before ++ leftValues) after hr
    simp only [List.append_assoc] at hleft hright ⊢
    rw [Predicate.fill, hleft, hright]
    rfl
  | grouping inner ih => exact ih before after h
  | number | string | field | arithmetic => cases h

/-! ## Prepared queries -/

/-- The query says what the tree says: it has the shape of the tree without groupings, and its
placeholders stand for the literals of the tree, counted from left to right. -/
structure PreparedQuery.Translates (q : PreparedQuery) (e : Expr) : Prop where
  fill : q.predicate.fill q.bindings = some e.ungrouped
  bindings : q.bindings = e.literals
  placeholders : q.predicate.placeholders = List.range e.leaves.length
  size : q.predicate.size = e.leaves.length
  length : q.bindings.length = e.leaves.length
  length_pos : 0 < q.bindings.length
  nodup : q.predicate.placeholders.Nodup
  lt_length : ∀ i ∈ q.predicate.placeholders, i < q.bindings.length

namespace Expr

theorem prepare_of_prepared {e : Expr} {r : Except PrepareError PreparedQuery}
    (h : e.prepared = r) : e.prepare.result = r := by
  rw [prepare, Logged.result_bind, ← h]
  cases e.prepared <;> rfl

/-- A tree that can be bound is prepared with that predicate and those bindings. -/
theorem prepare_of_bind {e : Expr} {p : Predicate} {values : List Literal}
    (h : e.bind 0 = .ok (p, values)) :
    ∃ q, e.prepare.result = .ok q ∧ q.predicate = p ∧ q.bindings = values := by
  have hprepared : ∃ q, e.prepared = .ok q ∧ q.predicate = p ∧ q.bindings = values := by
    rw [prepared]
    split
    · rename_i hbind; rw [h] at hbind; cases hbind
    · rename_i hbind; rw [h] at hbind; cases hbind; exact ⟨_, rfl, rfl, rfl⟩
  obtain ⟨q, hq, hfields⟩ := hprepared
  exact ⟨q, prepare_of_prepared hq, hfields⟩

/-- A tree that cannot be bound is not prepared, for the same reason. -/
theorem prepare_of_bind_error {e : Expr} {err : PrepareError} (h : e.bind 0 = .error err) :
    e.prepare.result = .error err := by
  refine prepare_of_prepared ?_
  rw [prepared]
  split
  · rename_i hbind; rw [h] at hbind; cases hbind; rfl
  · rename_i hbind; rw [h] at hbind; cases hbind

/-- The query a tree is prepared as has the predicate and the bindings of the tree. -/
theorem bind_of_prepare {e : Expr} {q : PreparedQuery} (h : e.prepare.result = .ok q) :
    e.bind 0 = .ok (q.predicate, q.bindings) := by
  cases hbind : e.bind 0 with
  | error err =>
    rw [prepare_of_bind_error hbind] at h
    cases h
  | ok bound =>
    obtain ⟨q', hq', hpredicate, hbindings⟩ := prepare_of_bind hbind
    rw [hq'] at h
    cases h
    rw [hpredicate, hbindings]

/-- A query with the predicate and the bindings of a tree says what the tree says. -/
theorem translates_of_bind {e : Expr} {q : PreparedQuery} (h : e.offender? = none)
    (hbind : e.bind 0 = .ok (q.predicate, q.bindings)) : q.Translates e := by
  have hbindings : q.bindings = e.literals := by
    obtain ⟨p, hleaves⟩ := bind_of_leaves h 0
    rw [hbind, Except.ok.injEq, Prod.mk.injEq] at hleaves
    exact hleaves.2
  have hlength : q.bindings.length = e.leaves.length := by rw [hbindings, length_literals h]
  have hplaceholders : q.predicate.placeholders = List.range e.leaves.length := by
    rw [q.placeholders_eq, hlength]
  have hfill := fill_of_bind [] [] hbind
  rw [List.nil_append, List.append_nil] at hfill
  refine ⟨hfill, hbindings, hplaceholders, ?_, hlength, ?_, ?_, q.lt_length_of_mem⟩
  · rw [← Predicate.length_placeholders, hplaceholders, List.length_range]
  · rw [hlength]
    exact List.length_pos_iff.mpr e.leaves_ne_nil
  · rw [hplaceholders]
    exact List.nodup_range

/-- **Preparation is faithful**: a tree is either translated, and then every leaf is a comparison,
or it is refused with the name of its first leaf that is none.  A grouping, a connective and a
comparison are never refused. -/
theorem prepare_translates (e : Expr) :
    match e.offender? with
    | none => ∃ q, e.prepare.result = .ok q ∧ q.Translates e
    | some node => e.prepare.result = .error (.notACondition node) ∧
        (PrepareError.notACondition node).message =
          "expected a comparison or logical expression, found a " ++ node.nodeName ∧
        node.nodeName ∉ ["grouping", "comparison", "logical expression"] := by
  cases h : e.offender? with
  | none =>
    obtain ⟨p, hbind⟩ := bind_of_leaves h 0
    obtain ⟨q, hprepare, rfl, -⟩ := prepare_of_bind hbind
    exact ⟨q, hprepare, translates_of_bind h (bind_of_prepare hprepare)⟩
  | some node =>
    exact ⟨prepare_of_bind_error (bind_of_offender h 0), rfl, nodeName_of_offender h⟩

end Expr
end RecordQuery
