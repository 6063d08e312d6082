import RecordQuery.Proofs.Composition
import RecordQuery.Proofs.Stages

/-!
# Expressions made of expressions

Of an arithmetic expression its tree keeps where the operators stand, and so do the errors of its
evaluation.  When the text is moved, all of them move with it and nothing else changes.

Two texts in parentheses with an operator between them are therefore worked out as they are worked
out alone.  If the left one fails, it is this failure that is reported, moved by its parenthesis;
then comes the right one, and then the operator itself.

* `Expr.shift`, `EvaluationError.shift`, `Symbol.shift`: everything moved by `n` characters.
* `Segment.symbols_shift`, `Expr.symbols_shift`: a text and its tree move together.
* `Expr.value_shift`: a moved tree is worked out like the tree.
* `Grammar.parse_operation`: the tree of an operation on two texts.
* `evaluateText_operation`: its value.
-/

set_option autoImplicit false

namespace RecordQuery

/-! ## Moving a tree -/

/-- What is kept of a token that stands `n` characters further on. -/
def Symbol.shift (n : Nat) (σ : Symbol) : Symbol := { σ with offset? := σ.offset?.map (· + n) }

/-- The tree with its operators `n` characters further on. -/
def Expr.shift (n : Nat) : Expr → Expr
  | arithmetic op left right position =>
    arithmetic op (left.shift n) (right.shift n) (position + n)
  | logical connective left right => logical connective (left.shift n) (right.shift n)
  | grouping inner => grouping (inner.shift n)
  | number value => number value
  | string text => string text
  | field path => field path
  | comparison path op value => comparison path op value

/-- The error of a tree `n` characters further on. -/
def EvaluationError.shift (n : Nat) : EvaluationError → EvaluationError
  | divisionByZero position => divisionByZero (position + n)
  | overflow position => overflow (position + n)
  | notArithmetic node => notArithmetic (node.shift n)

namespace Expr

variable (n : Nat)

/-- A moved tree is written by the moved tokens. -/
theorem symbols_shift (e : Expr) : (e.shift n).symbols = e.symbols.map (Symbol.shift n) := by
  induction e with
  | number | string | field => rfl
  | comparison path op value => cases value <;> rfl
  | arithmetic op left right position ihl ihr =>
    rw [shift, symbols, symbols, ihl, ihr, List.map_append, List.map_cons]
    rfl
  | logical connective left right ihl ihr =>
    rw [shift, symbols, symbols, ihl, ihr, List.map_append, List.map_cons]
    rfl
  | grouping inner ih =>
    rw [shift, symbols, symbols, ih, List.map_cons, List.map_append]
    rfl

theorem isLoose_shift (e : Expr) : (e.shift n).isLoose = e.isLoose := by
  cases e with
  | arithmetic op => cases op <;> rfl
  | number | string | field | comparison | logical | grouping => rfl

theorem isTight_shift (e : Expr) : (e.shift n).isTight = e.isTight := by
  cases e with
  | arithmetic op => cases op <;> rfl
  | number | string | field | comparison | logical | grouping => rfl

end Expr

theorem Grammar.Operator.takes_shift {op op' : Operator} {left right : Expr} (n : Nat)
    (hop : op'.isTight = op.isTight) (h : op.Takes left right) :
    op'.Takes (left.shift n) (right.shift n) := by
  rw [Takes] at h ⊢
  rw [hop, left.isLoose_shift, right.isLoose_shift, right.isTight_shift]
  exact h

/-- A moved tree is a tree of the same grammar. -/
theorem Grammar.Admits.shift {g : Grammar} {e : Expr} (h : g.Admits e) (n : Nat) :
    g.Admits (e.shift n) := by
  induction e with
  | number | string | field | comparison => exact h
  | grouping inner ih => exact ih h
  | arithmetic op left right position ihl ihr =>
    obtain ⟨hg, hl, hr, htakes⟩ := h
    have htight : (Operator.arithmetic op (position + n)).isTight =
        (Operator.arithmetic op position).isTight := by cases op <;> rfl
    exact ⟨hg, ihl hl, ihr hr, Operator.takes_shift n htight htakes⟩
  | logical connective left right ihl ihr =>
    obtain ⟨hg, hl, hr, htakes⟩ := h
    exact ⟨hg, ihl hl, ihr hr, Operator.takes_shift n rfl htakes⟩

theorem ArithmeticOp.apply_shift (op : ArithmeticOp) (l r : Integer) (position n : Nat) :
    op.apply l r (position + n) =
      (op.apply l r position).mapError (EvaluationError.shift n) := by
  rw [apply, apply]
  split
  · rfl
  · cases Integer.ofInt? (op.exact l.toInt r.toInt) <;> rfl

/-- A moved tree has the value of the tree, or the moved error. -/
theorem Expr.value_shift (n : Nat) (e : Expr) :
    (e.shift n).value = e.value.mapError (EvaluationError.shift n) := by
  induction e with
  | number | string | field | comparison | logical => rfl
  | grouping inner ih => exact ih
  | arithmetic op left right position ihl ihr =>
    rw [shift]
    cases hl : left.value with
    | error err =>
      rw [hl] at ihl
      rw [value_of_left_error ihl, value_of_left_error hl]
      rfl
    | ok l =>
      rw [hl] at ihl
      cases hr : right.value with
      | error err =>
        rw [hr] at ihr
        rw [value_of_right_error ihl ihr, value_of_right_error hl hr]
        rfl
      | ok r =>
        rw [hr] at ihr
        rw [value_arithmetic ihl ihr, value_arithmetic hl hr, op.apply_shift]

/-! ## Moving a text -/

theorem Token.symbol_shift (kind : Token.Kind) (lexeme : String) (offset n : Nat) :
    (Token.mk kind lexeme (offset + n)).symbol = (Token.mk kind lexeme offset).symbol.shift n := by
  cases kind <;> rfl

namespace Segment

/-- Segments that start further on have the same tokens further on. -/
theorem symbols_shift (segments : List Segment) (position n : Nat) :
    (tokens (position + n) segments).map Token.symbol =
      ((tokens position segments).map Token.symbol).map (Symbol.shift n) := by
  induction segments generalizing position with
  | nil => rfl
  | cons s segments ih =>
    rw [tokens, tokens, List.map_cons, List.map_cons, List.map_cons, ← ih, Nat.add_right_comm,
      token, token, Nat.add_right_comm, Token.symbol_shift]

theorem tokens_append (position : Nat) (segments segments' : List Segment) :
    tokens position (segments ++ segments') = tokens position segments ++
      tokens (position + (segments.flatMap chars).length) segments' := by
  induction segments generalizing position with
  | nil => rfl
  | cons s segments ih =>
    rw [List.cons_append, tokens, tokens, ih, List.flatMap_cons, List.length_append, Nat.add_assoc]
    rfl

/-- Between parentheses the tokens stand one character further on, and what follows stands two. -/
theorem symbols_parenthesized {cs blanks : List Char} {segments : List Segment}
    (h : cs = segments.flatMap chars ++ blanks) (position : Nat) (segments' : List Segment) :
    (tokens position (⟨[], ['('], .leftParen⟩ ::
        (segments ++ ⟨blanks, [')'], .rightParen⟩ :: segments'))).map Token.symbol =
      .plain .leftParen :: ((tokens (position + 1) segments).map Token.symbol ++
        .plain .rightParen :: (tokens (position + cs.length + 2) segments').map Token.symbol) := by
  have hlength : position + cs.length + 2 = position + (chars ⟨[], ['('], .leftParen⟩).length +
      (segments.flatMap chars).length + (chars ⟨blanks, [')'], .rightParen⟩).length := by
    rw [h, chars, chars]
    simp only [List.length_append, List.length_cons, List.length_nil]
    omega
  rw [hlength, tokens, tokens_append, tokens, List.map_cons, List.map_append, List.map_cons]
  rfl

end Segment

/-! ## An operation on two texts -/

namespace Grammar

/-- Two expressions in parentheses are the operands of the operator between them.  The first one is
moved by its parenthesis, and the second one by everything before it. -/
theorem parse_operation (op : ArithmeticOp) {text₁ text₂ : String} {e₁ e₂ : Expr}
    (h₁ : (arithmetic.parse text₁).result = .ok e₁)
    (h₂ : (arithmetic.parse text₂).result = .ok e₂) :
    (arithmetic.parse ("(" ++ text₁ ++ ")" ++ op.symbol ++ "(" ++ text₂ ++ ")")).result =
      .ok (.arithmetic op (e₁.shift 1).grouping (e₂.shift (text₁.length + 4)).grouping
        (text₁.length + 2)) := by
  obtain ⟨segments₁, hsegments₁, hsymbols₁, hadmits₁⟩ := parse_eq_ok_iff_segments.mp h₁
  obtain ⟨segments₂, hsegments₂, hsymbols₂, hadmits₂⟩ := parse_eq_ok_iff_segments.mp h₂
  have hend : Segmented [] [] := .nil nofun
  obtain ⟨blanks₂, hcs₂, hright⟩ := hsegments₂.parenthesized hend [] nofun
  have hoperator := Segmented.cons (s := ⟨[], op.symbol.toList, .operator op⟩) nofun
    (.operator op) (fun _ _ ↦ id) hright
  obtain ⟨blanks₁, hcs₁, hleft⟩ := hsegments₁.parenthesized hoperator [] nofun
  have htext : ("(" ++ text₁ ++ ")" ++ op.symbol ++ "(" ++ text₂ ++ ")").toList =
      [] ++ '(' :: (text₁.toList ++ ')' :: (Segment.chars ⟨[], op.symbol.toList, .operator op⟩ ++
        ([] ++ '(' :: (text₂.toList ++ [')'])))) := by
    simp [Segment.chars]
  rw [← htext] at hleft
  refine parse_eq_ok_iff_segments.mpr ⟨_, hleft, ?_, rfl, hadmits₁.shift 1,
    hadmits₂.shift (text₁.length + 4), ?_⟩
  · have hone : op.symbol.toList.length = 1 := by cases op <;> rfl
    have hfirst := Segment.symbols_shift segments₁ 0 1
    have hsecond := Segment.symbols_shift segments₂ 0 (text₁.length + 4)
    rw [hsymbols₁, ← Expr.symbols_shift, Nat.zero_add] at hfirst
    rw [hsymbols₂, ← Expr.symbols_shift, Nat.zero_add] at hsecond
    rw [Segment.symbols_parenthesized hcs₁, Segment.tokens, List.map_cons, Segment.chars,
      List.nil_append, hone, Segment.symbols_parenthesized hcs₂, Nat.zero_add,
      String.length_toList, Nat.zero_add, hfirst, hsecond, Expr.symbols, Expr.symbols,
      List.cons_append, List.append_assoc]
    rfl
  · cases op <;> simp [Operator.Takes, Operator.isTight, Expr.isLoose, Expr.isTight,
      Expr.bareOperator?]

end Grammar

/-- **Expressions combine as texts**: two accepted texts in parentheses, with an operator between
them, are worked out as they are worked out alone.  The error of the left one is reported first,
then the error of the right one, each as far from its own text as before.  Two values are combined
exactly, and a division by zero or a result that does not fit is reported at the operator. -/
theorem evaluateText_operation {text₁ text₂ : String} {e₁ e₂ : Expr}
    (h₁ : (Grammar.arithmetic.parse text₁).result = .ok e₁)
    (h₂ : (Grammar.arithmetic.parse text₂).result = .ok e₂) (op : ArithmeticOp) :
    let combined :=
      (evaluateText ("(" ++ text₁ ++ ")" ++ op.symbol ++ "(" ++ text₂ ++ ")")).result
    match (evaluateText text₁).result, (evaluateText text₂).result with
    | .error (.evaluation err), _ => combined = .error (.evaluation (err.shift 1))
    | .ok _, .error (.evaluation err) =>
      combined = .error (.evaluation (err.shift (text₁.length + 4)))
    | .ok a, .ok b =>
      if op = .divide ∧ b = 0 then
        combined = .error (.evaluation (.divisionByZero (text₁.length + 2)))
      else if Integer.InRange (op.exact a.toInt b.toInt) then
        ∃ v, combined = .ok v ∧ v.toInt = op.exact a.toInt b.toInt
      else combined = .error (.evaluation (.overflow (text₁.length + 2)))
    | _, _ => False := by
  intro combined
  have hcombined : combined =
      (Expr.arithmetic op (e₁.shift 1).grouping (e₂.shift (text₁.length + 4)).grouping
        (text₁.length + 2)).value.mapError .evaluation :=
    evaluateText_of_ok (Grammar.parse_operation op h₁ h₂)
  have hleft : (e₁.shift 1).grouping.value = e₁.value.mapError (EvaluationError.shift 1) :=
    e₁.value_shift 1
  have hright : (e₂.shift (text₁.length + 4)).grouping.value =
      e₂.value.mapError (EvaluationError.shift (text₁.length + 4)) :=
    e₂.value_shift _
  rw [evaluateText_of_ok h₁, evaluateText_of_ok h₂, hcombined]
  cases hvalue₁ : e₁.value with
  | error err =>
    rw [hvalue₁] at hleft
    rw [Expr.value_of_left_error hleft]
    rfl
  | ok a =>
    rw [hvalue₁] at hleft
    cases hvalue₂ : e₂.value with
    | error err =>
      rw [hvalue₂] at hright
      rw [Expr.value_of_right_error hleft hright]
      rfl
    | ok b =>
      rw [hvalue₂] at hright
      rw [Expr.value_arithmetic hleft hright]
      dsimp only [Except.mapError]
      split_ifs with hzero hrange
      · rw [ArithmeticOp.apply_of_divide_zero _ hzero]
      · obtain ⟨v, hv, hexact⟩ := ArithmeticOp.apply_of_inRange (text₁.length + 2) hzero hrange
        exact ⟨v, by rw [hv], hexact⟩
      · rw [ArithmeticOp.apply_of_not_inRange _ hzero hrange]

/-- In `(2*(3+4) )-(7 - 5/0)` the right operand fails at its `/`, which is the sixth character of
the right text and the eighteenth of the whole. -/
theorem evaluateText_difference :
    (evaluateText "(2*(3+4) )-(7 - 5/0)").result = .error (.evaluation (.divisionByZero 17)) := by
  have h₁ : (Grammar.arithmetic.parse "2*(3+4) ").result = .ok
      (.arithmetic .multiply (.number 2)
        (.grouping (.arithmetic .add (.number 3) (.number 4) 4)) 1) := by decide +kernel
  have h₂ : (Grammar.arithmetic.parse "7 - 5/0").result = .ok
      (.arithmetic .subtract (.number 7) (.arithmetic .divide (.number 5) (.number 0) 5) 2) := by
    decide +kernel
  have hvalue₁ : (evaluateText "2*(3+4) ").result = .ok 14 := by decide +kernel
  have hvalue₂ : (evaluateText "7 - 5/0").result = .error (.evaluation (.divisionByZero 5)) := by
    decide +kernel
  have h := evaluateText_operation h₁ h₂ .subtract
  rw [hvalue₁, hvalue₂] at h
  exact h

end RecordQuery
