import RecordQuery.Evaluation
import Mathlib.Data.List.Basic

/-!
# Arithmetic is exact

A tree is worked out in integers of 64 bits, but it means what unbounded integers make of it.  The
two agree as long as they can, and where they cannot, evaluation stops: no result ever wraps around,
and of several failures the first one is reported.

*First* refers to an order of the nodes.  Operands come before their operator and the left operand
comes before the right one; a node that is no arithmetic hides what is below it.

* `Expr.Denotes`: the value of a tree in unbounded integers.
* `Expr.visits`, `Expr.Fails`: the nodes in order, and what is wrong at a single one of them.
* `Expr.IsComputable`: nothing is wrong anywhere.
* `FirstFailure`: the first of a sequence of nodes at which something is wrong.
* `value_cases_exact`: a tree has its value, or fails at the first such node.
* `evaluate_exact`: the two outcomes of evaluation.
-/

set_option autoImplicit false

namespace RecordQuery
namespace Expr

/-! ## What a tree means -/

/-- The value of a tree in unbounded integers; division truncates toward zero. -/
inductive Denotes : Expr → Int → Prop
  | number (n : Integer) : Denotes (number n) n.toInt
  | grouping {inner : Expr} {x : Int} (h : Denotes inner x) : Denotes (grouping inner) x
  | sum {left right : Expr} {position : Nat} {a b : Int} (hl : Denotes left a)
      (hr : Denotes right b) : Denotes (arithmetic .add left right position) (a + b)
  | difference {left right : Expr} {position : Nat} {a b : Int} (hl : Denotes left a)
      (hr : Denotes right b) : Denotes (arithmetic .subtract left right position) (a - b)
  | product {left right : Expr} {position : Nat} {a b : Int} (hl : Denotes left a)
      (hr : Denotes right b) : Denotes (arithmetic .multiply left right position) (a * b)
  | quotient {left right : Expr} {position : Nat} {a b : Int} (hl : Denotes left a)
      (hr : Denotes right b) (hb : b ≠ 0) :
      Denotes (arithmetic .divide left right position) (a.tdiv b)

/-- Whether a node may stand in an arithmetic tree. -/
def isArithmetic : Expr → Bool
  | number _ | grouping _ | arithmetic .. => true
  | string _ | field _ | comparison .. | logical .. => false

/-- The nodes that evaluation comes to, in the order in which it is done with them. -/
def visits : Expr → List Expr
  | grouping inner => inner.visits ++ [grouping inner]
  | arithmetic op left right position =>
    left.visits ++ right.visits ++ [arithmetic op left right position]
  | number n => [number n]
  | string text => [string text]
  | field path => [field path]
  | comparison path op value => [comparison path op value]
  | logical connective left right => [logical connective left right]

/-- What is wrong at a node, as far as the node itself is concerned. -/
inductive Fails : Expr → EvaluationError → Prop
  | notArithmetic {node : Expr} (h : node.isArithmetic = false) : Fails node (.notArithmetic node)
  | divisionByZero {left right : Expr} {position : Nat} (h : right.Denotes 0) :
      Fails (arithmetic .divide left right position) (.divisionByZero position)
  | overflow {op : ArithmeticOp} {left right : Expr} {position : Nat} {x : Int}
      (h : (arithmetic op left right position).Denotes x) (hx : ¬ Integer.InRange x) :
      Fails (arithmetic op left right position) (.overflow position)

/-- Every node that evaluation comes to is arithmetic, divides by no zero and stays within
`64` bits. -/
structure IsComputable (e : Expr) : Prop where
  isArithmetic : ∀ node ∈ e.visits, node.isArithmetic = true
  ne_zero : ∀ left right position, arithmetic .divide left right position ∈ e.visits →
    ¬ right.Denotes 0
  inRange : ∀ node ∈ e.visits, ∀ x, node.Denotes x → Integer.InRange x

end Expr

/-- Of the nodes, in their order, the first one at which something is wrong fails with `err`. -/
inductive FirstFailure : List Expr → EvaluationError → Prop
  | here {node : Expr} {nodes : List Expr} {err : EvaluationError} (h : node.Fails err) :
      FirstFailure (node :: nodes) err
  | later {node : Expr} {nodes : List Expr} {err : EvaluationError}
      (hnode : ∀ err', ¬ node.Fails err') (h : FirstFailure nodes err) :
      FirstFailure (node :: nodes) err

namespace Expr

/-! ## One node -/

/-- A tree has one value at most. -/
theorem Denotes.unique {e : Expr} {x y : Int} (hx : e.Denotes x) (hy : e.Denotes y) : x = y := by
  induction hx generalizing y with
  | number => cases hy; rfl
  | grouping _ ih => cases hy with | grouping h => exact ih h
  | sum _ _ ihl ihr => cases hy with | sum hl hr => rw [ihl hl, ihr hr]
  | difference _ _ ihl ihr => cases hy with | difference hl hr => rw [ihl hl, ihr hr]
  | product _ _ ihl ihr => cases hy with | product hl hr => rw [ihl hl, ihr hr]
  | quotient _ _ _ ihl ihr => cases hy with | quotient hl hr => rw [ihl hl, ihr hr]

/-- The four operations, read off their operator. -/
theorem denotes_arithmetic_iff {op : ArithmeticOp} {left right : Expr} {position : Nat} {x : Int} :
    (arithmetic op left right position).Denotes x ↔ ∃ a b, left.Denotes a ∧ right.Denotes b ∧
      (op = .divide → b ≠ 0) ∧ op.exact a b = x := by
  constructor
  · intro h
    cases h with
    | sum hl hr => exact ⟨_, _, hl, hr, nofun, rfl⟩
    | difference hl hr => exact ⟨_, _, hl, hr, nofun, rfl⟩
    | product hl hr => exact ⟨_, _, hl, hr, nofun, rfl⟩
    | quotient hl hr hb => exact ⟨_, _, hl, hr, fun _ ↦ hb, rfl⟩
  · rintro ⟨a, b, hl, hr, hb, rfl⟩
    cases op with
    | add => exact .sum hl hr
    | subtract => exact .difference hl hr
    | multiply => exact .product hl hr
    | divide => exact .quotient hl hr (hb rfl)

theorem not_fails_number (n : Integer) (err : EvaluationError) : ¬ (number n).Fails err := by
  rintro (h | _ | _)
  cases h

theorem not_fails_grouping (inner : Expr) (err : EvaluationError) :
    ¬ (grouping inner).Fails err := by
  rintro (h | _ | _)
  cases h

/-- At a node only one thing can be wrong: behind a division by zero there is no value left to
overflow. -/
theorem Fails.unique {node : Expr} {err err' : EvaluationError} (h : node.Fails err)
    (h' : node.Fails err') : err = err' := by
  have hclash : ∀ {left right : Expr} {position : Nat} {x : Int}, right.Denotes 0 →
      ¬ (arithmetic .divide left right position).Denotes x := by
    intro left right position x hzero hx
    obtain ⟨a, b, -, hb, hne, -⟩ := denotes_arithmetic_iff.mp hx
    exact hne rfl (hb.unique hzero)
  cases h with
  | notArithmetic hnode =>
    cases h' with
    | notArithmetic => rfl
    | divisionByZero => cases hnode
    | overflow => cases hnode
  | divisionByZero hzero =>
    cases h' with
    | notArithmetic hnode => cases hnode
    | divisionByZero => rfl
    | overflow hx => exact absurd hx (hclash hzero)
  | overflow hx =>
    cases h' with
    | notArithmetic hnode => cases hnode
    | divisionByZero hzero => exact absurd hx (hclash hzero)
    | overflow => rfl

end Expr

/-! ## The first failure -/

namespace FirstFailure

variable {nodes more : List Expr} {err err' : EvaluationError}

theorem append_right (h : FirstFailure nodes err) (more : List Expr) :
    FirstFailure (nodes ++ more) err := by
  induction h with
  | here h => exact .here h
  | later hnode _ ih => exact .later hnode ih

theorem append_left (hnodes : ∀ node ∈ nodes, ∀ err', ¬ node.Fails err')
    (h : FirstFailure more err) : FirstFailure (nodes ++ more) err := by
  induction nodes with
  | nil => exact h
  | cons node nodes ih =>
    exact .later (hnodes node List.mem_cons_self)
      (ih fun n hn ↦ hnodes n (List.mem_cons_of_mem _ hn))

theorem exists_fails (h : FirstFailure nodes err) : ∃ node ∈ nodes, node.Fails err := by
  induction h with
  | here h => exact ⟨_, List.mem_cons_self, h⟩
  | later _ _ ih =>
    obtain ⟨node, hnode, hfails⟩ := ih
    exact ⟨node, List.mem_cons_of_mem _ hnode, hfails⟩

/-- Only one failure comes first. -/
theorem unique (h : FirstFailure nodes err) (h' : FirstFailure nodes err') : err = err' := by
  induction h with
  | here h =>
    cases h' with
    | here h' => exact h.unique h'
    | later hnode => exact absurd h (hnode _)
  | later hnode _ ih =>
    cases h' with
    | here h' => exact absurd h' (hnode _)
    | later _ h' => exact ih h'

end FirstFailure

namespace Expr

/-! ## Whole trees -/

/-- One operation on two values: it is exact, or it is what fails. -/
theorem apply_cases_exact (op : ArithmeticOp) {left right : Expr} {l r : Integer} (position : Nat)
    (hl : left.Denotes l.toInt) (hr : right.Denotes r.toInt) :
    (∃ v, op.apply l r position = .ok v ∧
        (arithmetic op left right position).Denotes v.toInt ∧
        ∀ err, ¬ (arithmetic op left right position).Fails err) ∨
      ∃ err, op.apply l r position = .error err ∧
        (arithmetic op left right position).Fails err := by
  by_cases hzero : op = .divide ∧ r = 0
  · refine .inr ⟨_, ArithmeticOp.apply_of_divide_zero position hzero, ?_⟩
    obtain ⟨rfl, rfl⟩ := hzero
    exact .divisionByZero hr
  · have hne : op = .divide → r.toInt ≠ 0 := by
      intro hop hr0
      exact hzero ⟨hop, Int64.toInt_inj.mp hr0⟩
    have hdenotes : (arithmetic op left right position).Denotes (op.exact l.toInt r.toInt) :=
      denotes_arithmetic_iff.mpr ⟨_, _, hl, hr, hne, rfl⟩
    by_cases hrange : Integer.InRange (op.exact l.toInt r.toInt)
    · obtain ⟨v, hv, hexact⟩ := ArithmeticOp.apply_of_inRange position hzero hrange
      refine .inl ⟨v, hv, hexact ▸ hdenotes, ?_⟩
      rintro err (hnode | hright | ⟨hx, hout⟩)
      · cases hnode
      · exact hne rfl (hr.unique hright)
      · exact hout (hx.unique hdenotes ▸ hrange)
    · exact .inr ⟨_, ArithmeticOp.apply_of_not_inRange position hzero hrange,
        .overflow hdenotes hrange⟩

/-- A tree has its value and nothing is wrong at any of its nodes, or it fails at the first node
where something is. -/
theorem value_cases_exact (e : Expr) :
    (∃ v, e.value = .ok v ∧ e.Denotes v.toInt ∧ ∀ node ∈ e.visits, ∀ err, ¬ node.Fails err) ∨
      ∃ err, e.value = .error err ∧ FirstFailure e.visits err := by
  induction e with
  | number n =>
    refine .inl ⟨n, rfl, .number n, fun node hnode ↦ ?_⟩
    rw [List.mem_singleton.mp hnode]
    exact not_fails_number n
  | string | field | comparison | logical => exact .inr ⟨_, rfl, .here (.notArithmetic rfl)⟩
  | grouping inner ih =>
    rcases ih with ⟨v, hv, hdenotes, hvisits⟩ | ⟨err, herr, hfirst⟩
    · refine .inl ⟨v, hv, .grouping hdenotes, fun node hnode ↦ ?_⟩
      rcases List.mem_append.mp hnode with hnode | hnode
      · exact hvisits node hnode
      · rw [List.mem_singleton.mp hnode]
        exact not_fails_grouping inner
    · exact .inr ⟨err, herr, hfirst.append_right _⟩
  | arithmetic op left right position ihl ihr =>
    rcases ihl with ⟨l, hl, hleft, hvisitsLeft⟩ | ⟨err, hl, hfirst⟩
    · rcases ihr with ⟨r, hr, hright, hvisitsRight⟩ | ⟨err, hr, hfirst⟩
      · have hvisits : ∀ node ∈ left.visits ++ right.visits, ∀ err, ¬ node.Fails err :=
          fun node hnode ↦ (List.mem_append.mp hnode).elim (hvisitsLeft node) (hvisitsRight node)
        rw [value_arithmetic hl hr]
        rcases apply_cases_exact op position hleft hright with ⟨v, hv, hdenotes, hroot⟩ | h
        · refine .inl ⟨v, hv, hdenotes, fun node hnode ↦ ?_⟩
          rcases List.mem_append.mp hnode with hnode | hnode
          · exact hvisits node hnode
          · rw [List.mem_singleton.mp hnode]
            exact hroot
        · obtain ⟨err, herr, hroot⟩ := h
          exact .inr ⟨err, herr, .append_left hvisits (.here hroot)⟩
      · exact .inr ⟨err, value_of_right_error hl hr,
          (hfirst.append_left hvisitsLeft).append_right _⟩
    · exact .inr ⟨err, value_of_left_error hl, (hfirst.append_right _).append_right _⟩

theorem mem_visits_self (e : Expr) : e ∈ e.visits := by
  cases e with
  | grouping | arithmetic => exact List.mem_append_right _ List.mem_cons_self
  | number | string | field | comparison | logical => exact List.mem_cons_self

/-- Evaluation comes to what stands in parentheses before it comes to the parentheses. -/
theorem inner_mem_visits {e inner : Expr} (h : grouping inner ∈ e.visits) : inner ∈ e.visits := by
  induction e with
  | grouping inner' ih =>
    rcases List.mem_append.mp h with h | h
    · exact List.mem_append_left _ (ih h)
    · cases List.mem_singleton.mp h
      exact List.mem_append_left _ inner.mem_visits_self
  | arithmetic op left right position ihl ihr =>
    rcases List.mem_append.mp h with h | h
    · refine List.mem_append_left _ ?_
      rcases List.mem_append.mp h with h | h
      · exact List.mem_append_left _ (ihl h)
      · exact List.mem_append_right _ (ihr h)
    · cases List.mem_singleton.mp h
  | number | string | field | comparison | logical => cases List.mem_singleton.mp h

/-- Computable trees are those without a failing node. -/
theorem isComputable_iff {e : Expr} :
    e.IsComputable ↔ ∀ node ∈ e.visits, ∀ err, ¬ node.Fails err := by
  constructor
  · rintro ⟨harithmetic, hne, hrange⟩ node hnode err (h | h | ⟨hx, hout⟩)
    · rw [harithmetic node hnode] at h
      cases h
    · exact hne _ _ _ hnode h
    · exact hout (hrange _ hnode _ hx)
  · intro h
    refine ⟨fun node hnode ↦ ?_, fun left right position hnode hzero ↦ ?_,
      fun node hnode x hx ↦ ?_⟩
    · cases hk : node.isArithmetic with
      | true => rfl
      | false => exact absurd (.notArithmetic hk) (h node hnode _)
    · exact h _ hnode _ (.divisionByZero hzero)
    · induction hx with
      | number n => exact Integer.inRange_toInt n
      | grouping _ ih => exact ih (inner_mem_visits hnode)
      | sum hl hr => exact by_contra fun hout ↦ h _ hnode _ (.overflow (.sum hl hr) hout)
      | difference hl hr =>
        exact by_contra fun hout ↦ h _ hnode _ (.overflow (.difference hl hr) hout)
      | product hl hr => exact by_contra fun hout ↦ h _ hnode _ (.overflow (.product hl hr) hout)
      | quotient hl hr hb =>
        exact by_contra fun hout ↦ h _ hnode _ (.overflow (.quotient hl hr hb) hout)

/-- A node that is no arithmetic is called by its own name. -/
theorem Fails.nodeName {node node' : Expr} (h : node.Fails (.notArithmetic node')) :
    node'.nodeName ∈ ["string literal", "field path", "comparison", "logical expression"] := by
  cases h with
  | notArithmetic h =>
    cases node with
    | number | grouping | arithmetic => cases h
    | string | field | comparison | logical => simp [Expr.nodeName]

/-- **Evaluation is exact**: a tree has a value exactly when it is computable, and then it is the
value in unbounded integers.  Otherwise evaluation fails for the first node at which something is
wrong, whatever is wrong behind it. -/
theorem evaluate_exact (e : Expr) :
    (∀ v, e.evaluate.result = .ok v ↔ e.IsComputable ∧ e.Denotes v.toInt) ∧
      (e.IsComputable → ∃ v, e.evaluate.result = .ok v) ∧
      (∀ err, e.evaluate.result = .error err ↔ FirstFailure e.visits err) ∧
      ∀ node, e.evaluate.result = .error (.notArithmetic node) →
        node.nodeName ∈ ["string literal", "field path", "comparison", "logical expression"] ∧
          (EvaluationError.notArithmetic node).message =
            "cannot evaluate a " ++ node.nodeName ++ " as arithmetic" := by
  rw [result_evaluate, isComputable_iff]
  rcases e.value_cases_exact with ⟨v, hv, hdenotes, hvisits⟩ | ⟨err, herr, hfirst⟩
  · rw [hv]
    refine ⟨fun w ↦ ⟨?_, ?_⟩, fun _ ↦ ⟨v, rfl⟩, fun err ↦ ⟨nofun, fun hfirst ↦ ?_⟩, nofun⟩
    · rintro ⟨⟩
      exact ⟨hvisits, hdenotes⟩
    · rintro ⟨-, hw⟩
      rw [Int64.toInt_inj.mp (hdenotes.unique hw)]
    · obtain ⟨node, hnode, hfails⟩ := hfirst.exists_fails
      exact absurd hfails (hvisits node hnode err)
  · obtain ⟨node, hnode, hfails⟩ := hfirst.exists_fails
    rw [herr]
    refine ⟨fun w ↦ ⟨nofun, fun h ↦ absurd hfails (h.1 node hnode err)⟩,
      fun h ↦ absurd hfails (h node hnode err), fun err' ↦ ⟨?_, fun h ↦ ?_⟩, ?_⟩
    · rintro ⟨⟩
      exact hfirst
    · rw [hfirst.unique h]
    · rintro node' ⟨⟩
      obtain ⟨n, -, hn⟩ := hfirst.exists_fails
      exact ⟨hn.nodeName, rfl⟩

/-- The least integer divided by minus one is beyond the largest, and the zero behind it does not
matter. -/
example : (arithmetic .divide
    (arithmetic .divide (number (-0x8000000000000000)) (number (-1)) 3) (number 0) 5).value =
      .error (.overflow 3) := by
  decide

end Expr
end RecordQuery
