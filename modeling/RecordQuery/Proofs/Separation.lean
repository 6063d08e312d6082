import RecordQuery.Proofs.ExactArithmetic
import RecordQuery.Proofs.Preparation
import RecordQuery.Proofs.Recognition

/-!
# The two modes are apart

What is worked out is never prepared as a query, and what is prepared is never worked out, so that a
host that asks in the wrong mode is told so and gets no answer.

* *Texts.*  Both grammars have parentheses, and a text may open any number of them before it shows
  what it is.  But a query has a field in it somewhere and an arithmetic expression has none
  (`Grammar.exists_identifier_iff`).
* *Trees.*  A tree built by hand may have nodes of both modes.  Its mode is settled by its core, the
  first node below the groupings at its root: where the core belongs to the other mode, this is the
  node that is refused.

* `Grammar.eq_of_parse_ok`: no text is a sentence of both grammars.
* `Expr.core`: a tree without the groupings around it.
* `Expr.value_of_bind`, `Expr.bind_of_value`: what one mode takes, the other refuses for its core.
* `modes_apart`: texts and trees.
-/

set_option autoImplicit false

namespace RecordQuery

/-! ## Texts -/

namespace Grammar

/-- An operation has a field in it when one of its operands has. -/
theorem exists_identifier_join (op : Operator) (left right : Expr) :
    (∃ name, .identifier name ∈ (op.join left right).kinds) ↔
      (∃ name, .identifier name ∈ left.kinds) ∨ ∃ name, .identifier name ∈ right.kinds := by
  rw [← exists_or]
  refine exists_congr fun name ↦ ?_
  have hop : .identifier name ≠ op.symbol.kind := by cases op <;> nofun
  rw [Expr.kinds, Expr.symbols_join, List.map_append, List.map_cons, List.mem_append,
    List.mem_cons, or_iff_right hop]
  rfl

/-- A query has a field in it, and an arithmetic expression has none. -/
theorem exists_identifier_iff {g : Grammar} {e : Expr} (h : g.Admits e) :
    (∃ name, .identifier name ∈ e.kinds) ↔ g = .query := by
  induction e with
  | number n =>
    cases h
    simp [Expr.kinds, Expr.symbols, Symbol.plain]
  | comparison path op value =>
    cases h.1
    simp [Expr.kinds, Expr.symbols, Symbol.plain]
  | arithmetic op left right position ihl ihr =>
    obtain ⟨-, hleft, hright, -⟩ := h
    have hjoin := exists_identifier_join (.arithmetic op position) left right
    rwa [ihl hleft, ihr hright, or_self] at hjoin
  | logical connective left right ihl ihr =>
    obtain ⟨-, hleft, hright, -⟩ := h
    have hjoin := exists_identifier_join (.logical connective) left right
    rwa [ihl hleft, ihr hright, or_self] at hjoin
  | grouping inner ih =>
    rw [← ih h, Expr.kinds_grouping]
    simp
  | string | field => exact h.elim

/-- No text is both arithmetic and a query. -/
theorem eq_of_parse_ok {g g' : Grammar} {text : String} {e e' : Expr}
    (h : (g.parse text).result = .ok e) (h' : (g'.parse text).result = .ok e') : g = g' := by
  obtain ⟨tokens, htokens, hsymbols, hadmits⟩ := parse_eq_ok_iff.mp h
  obtain ⟨tokens', htokens', hsymbols', hadmits'⟩ := parse_eq_ok_iff.mp h'
  obtain rfl := htokens.unique htokens'
  have hkinds : e.kinds = e'.kinds := by rw [Expr.kinds, Expr.kinds, ← hsymbols, ← hsymbols']
  have hquery : g = .query ↔ g' = .query := by
    rw [← exists_identifier_iff hadmits, ← exists_identifier_iff hadmits', hkinds]
  cases g with
  | query => exact (hquery.mp rfl).symm
  | arithmetic =>
    cases g' with
    | query => exact hquery.mpr rfl
    | arithmetic => rfl

end Grammar

/-! ## Trees -/

namespace Expr

/-- The tree without the groupings around it. -/
def core : Expr → Expr
  | grouping inner => inner.core
  | number n => number n
  | string text => string text
  | field path => field path
  | arithmetic op left right position => arithmetic op left right position
  | comparison path op value => comparison path op value
  | logical connective left right => logical connective left right

theorem value_core (e : Expr) : e.core.value = e.value := by
  induction e with
  | grouping inner ih => exact ih
  | number | string | field | arithmetic | comparison | logical => rfl

theorem bind_core (e : Expr) (first : Nat) : e.core.bind first = e.bind first := by
  induction e with
  | grouping inner ih => exact ih
  | number | string | field | arithmetic | comparison | logical => rfl

theorem core_ne_grouping (e inner : Expr) : e.core ≠ grouping inner := by
  induction e with
  | grouping inner ih => exact ih
  | number | string | field | arithmetic | comparison | logical => nofun

/-- A tree that can be bound is no arithmetic, and its core says so. -/
theorem value_of_bind {e : Expr} {first : Nat} {bound : Predicate × List Literal}
    (h : e.bind first = .ok bound) :
    e.value = .error (.notArithmetic e.core) ∧
      e.core.nodeName ∈ ["comparison", "logical expression"] := by
  rw [← bind_core] at h
  rw [← value_core]
  cases hcore : e.core with
  | comparison | logical => exact ⟨rfl, by simp [nodeName]⟩
  | number | string | field | arithmetic => rw [hcore] at h; cases h
  | grouping inner => exact absurd hcore (e.core_ne_grouping inner)

/-- A tree that has a value is no condition, and its core says so. -/
theorem bind_of_value {e : Expr} {n : Integer} (h : e.value = .ok n) (first : Nat) :
    e.bind first = .error (.notACondition e.core) ∧
      e.core.nodeName ∈ ["number literal", "arithmetic expression"] := by
  rw [← value_core] at h
  rw [← bind_core]
  cases hcore : e.core with
  | number | arithmetic => exact ⟨rfl, by simp [nodeName]⟩
  | string | field | comparison | logical => rw [hcore] at h; cases h
  | grouping inner => exact absurd hcore (e.core_ne_grouping inner)

/-- Evaluation goes through a grouping and never stops at one. -/
theorem nodeName_of_notArithmetic {e node : Expr} (h : e.value = .error (.notArithmetic node)) :
    node.nodeName ≠ "grouping" := by
  rcases e.value_cases_exact with ⟨n, hn, -⟩ | ⟨err, herr, hfirst⟩
  · rw [hn] at h
    cases h
  · rw [herr] at h
    cases h
    obtain ⟨node', -, hfails⟩ := hfirst.exists_fails
    have hname := hfails.nodeName
    rintro hgrouping
    rw [hgrouping] at hname
    exact absurd hname (by decide)

/-- A tree that is not prepared cannot be bound, for the same reason. -/
theorem bind_of_prepare_error {e : Expr} {err : PrepareError}
    (h : e.prepare.result = .error err) : e.bind 0 = .error err := by
  cases hbind : e.bind 0 with
  | error err' =>
    rw [prepare_of_bind_error hbind] at h
    rw [Except.error.inj h]
  | ok bound =>
    obtain ⟨q, hq, -⟩ := prepare_of_bind hbind
    rw [hq] at h
    cases h

/-- Binding goes through a grouping and never stops at one. -/
theorem nodeName_of_notACondition {e node : Expr} {first : Nat}
    (h : e.bind first = .error (.notACondition node)) : node.nodeName ≠ "grouping" := by
  cases hoffender : e.offender? with
  | none =>
    obtain ⟨p, hbind⟩ := bind_of_leaves hoffender first
    rw [hbind] at h
    cases h
  | some node' =>
    rw [bind_of_offender hoffender first] at h
    cases h
    exact fun hgrouping ↦ nodeName_of_offender hoffender (by simp [hgrouping])

end Expr

/-- **The two modes are apart**: no text is a sentence of both grammars, and no tree both has a
value and can be prepared.  Each mode refuses what the other one takes, and names the root of the
tree below its groupings.  It is never a grouping that is named, whatever the tree. -/
theorem modes_apart :
    (∀ (text : String) (e e' : Expr), (Grammar.arithmetic.parse text).result = .ok e →
      (Grammar.query.parse text).result ≠ .ok e') ∧
    ∀ e : Expr,
      (∀ q, e.prepare.result = .ok q →
        e.evaluate.result = .error (.notArithmetic e.core) ∧
          e.core.nodeName ∈ ["comparison", "logical expression"]) ∧
      (∀ n, e.evaluate.result = .ok n →
        e.prepare.result = .error (.notACondition e.core) ∧
          e.core.nodeName ∈ ["number literal", "arithmetic expression"]) ∧
      (∀ node, e.evaluate.result = .error (.notArithmetic node) → node.nodeName ≠ "grouping") ∧
      ∀ node, e.prepare.result = .error (.notACondition node) → node.nodeName ≠ "grouping" := by
  refine ⟨fun text e e' he he' ↦ ?_, fun e ↦ ⟨fun q hq ↦ ?_, fun n hn ↦ ?_, fun node hnode ↦ ?_,
    fun node hnode ↦ ?_⟩⟩
  · exact nomatch Grammar.eq_of_parse_ok he he'
  · rw [e.result_evaluate]
    exact Expr.value_of_bind (Expr.bind_of_prepare hq)
  · rw [e.result_evaluate] at hn
    obtain ⟨hbind, hname⟩ := Expr.bind_of_value hn 0
    exact ⟨Expr.prepare_of_bind_error hbind, hname⟩
  · rw [e.result_evaluate] at hnode
    exact Expr.nodeName_of_notArithmetic hnode
  · exact Expr.nodeName_of_notACondition (Expr.bind_of_prepare_error hnode)

/-- Behind two parentheses the query shows its connective, and the sum its operator. -/
theorem modes_apart_below_groupings :
    let path : FieldPath := ⟨["a"], by decide, by decide⟩
    let condition := Expr.logical .or (.comparison path .equal (.integer 1))
      (.grouping (.comparison path .like (.string "%")))
    let sum := Expr.arithmetic .add (.number 1) (.grouping (.number 2)) 3
    condition.grouping.grouping.prepare.result.isOk = true ∧
      condition.grouping.grouping.evaluate.result = .error (.notArithmetic condition) ∧
      sum.grouping.grouping.evaluate.result = .ok 3 ∧
      sum.grouping.grouping.prepare.result = .error (.notACondition sum) := by
  intro path condition sum
  have hsum : sum.grouping.grouping.evaluate.result = .ok 3 := by decide
  obtain ⟨-, hmodes⟩ := modes_apart
  exact ⟨rfl, ((hmodes condition.grouping.grouping).1 _ rfl).1, hsum,
    ((hmodes sum.grouping.grouping).2.1 3 hsum).1⟩

end RecordQuery
