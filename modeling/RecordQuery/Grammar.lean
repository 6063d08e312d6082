import RecordQuery.Expr
import RecordQuery.SyntaxError

/-!
# The two grammars

Arithmetic expressions and queries have one shape.  Operands are joined by operators of two
strengths, operators of equal strength group to the left, and parentheses override both:

* arithmetic: the operands are numbers, `*` and `/` bind tighter than `+` and `-`;
* queries: the operands are comparisons of a field with a literal, `AND` binds tighter than `OR`.

A sentence is read one token at a time.  `Grammar.State` is what has been read so far and
`Grammar.step` is what one more token makes of it: it is taken in (`shift`), it ends a complete
sentence (`accept`), or no sentence goes on with it (`reject`).

Within one pair of parentheses at most two operators wait for their right operand, a loose one and
behind it a tight one; this is a `Level`.  The levels around the innermost parenthesis form a
stack, so nesting may be as deep as the text is long.
-/

set_option autoImplicit false

namespace RecordQuery

/-- Which sentences are read. -/
inductive Grammar where
  | arithmetic
  | query
deriving DecidableEq, Repr

namespace Grammar

/-! ## Operators between operands -/

/-- An operator between two operands. -/
inductive Operator where
  | arithmetic (op : ArithmeticOp) (position : Nat)
  | logical (connective : Connective)
deriving DecidableEq, Repr

/-- Whether the operator is of the tighter of the two strengths. -/
def Operator.isTight : Operator → Bool
  | arithmetic .multiply _ | arithmetic .divide _ | logical .and => true
  | arithmetic .add _ | arithmetic .subtract _ | logical .or => false

/-- The tree of an operator and its operands. -/
def Operator.join : Operator → Expr → Expr → Expr
  | arithmetic op position, left, right => .arithmetic op left right position
  | logical connective, left, right => .logical connective left right

/-- The operator of the grammar that a token stands for. -/
def operator? (g : Grammar) (t : Token) : Option Operator :=
  match g, t.kind with
  | .arithmetic, .operator op => some (.arithmetic op t.offset)
  | .query, .connective connective => some (.logical connective)
  | _, _ => none

/-! ## What has been read -/

/-- A left operand and its operator. -/
structure Pending where
  left : Expr
  operator : Operator
deriving DecidableEq, Repr

/-- The tree that the right operand completes. -/
def Pending.complete (p : Pending) (right : Expr) : Expr := p.operator.join p.left right

/-- The operators that wait for their right operand, between two parentheses. -/
structure Level where
  loose : Option Pending
  tight : Option Pending
deriving DecidableEq, Repr

namespace Level

/-- No operator waits. -/
def empty : Level := ⟨none, none⟩

/-- `operand` as the right operand of the tight operator. -/
def closeTight (l : Level) (operand : Expr) : Expr :=
  match l.tight with
  | none => operand
  | some p => p.complete operand

/-- `operand` as the right operand of both operators. -/
def close (l : Level) (operand : Expr) : Expr :=
  match l.loose with
  | none => l.closeTight operand
  | some p => p.complete (l.closeTight operand)

/-- The level after `operand` and one more operator, which takes whatever binds at least as tight
as its left operand. -/
def push (l : Level) (operand : Expr) (op : Operator) : Level :=
  if op.isTight then { l with tight := some ⟨l.closeTight operand, op⟩ }
  else ⟨some ⟨l.close operand, op⟩, none⟩

end Level

/-- What the next token may be. -/
inductive Awaiting where
  /-- an operand or an opening parenthesis -/
  | operand
  /-- the comparator of a field -/
  | comparator (field : FieldPath)
  /-- the literal a field is compared with -/
  | literal (field : FieldPath) (op : Comparator)
  /-- an operator, a closing parenthesis or the end, behind `operand` -/
  | operator (operand : Expr)
deriving DecidableEq, Repr

/-- The part of a sentence that has been read. -/
structure State where
  awaiting : Awaiting
  /-- the operators since the innermost open parenthesis -/
  level : Level
  /-- the open parentheses, the innermost first: the offset of each, and the operators before it -/
  enclosing : List (Nat × Level)
deriving DecidableEq, Repr

/-- Nothing has been read. -/
def State.initial : State := ⟨.operand, .empty, []⟩

/-! ## One more token -/

/-- What becomes of a token. -/
inductive Step where
  /-- it belongs to the sentence -/
  | shift (next : State)
  /-- it ends the sentence -/
  | accept (e : Expr)
  /-- no sentence goes on with it -/
  | reject (e : SyntaxError)
deriving DecidableEq, Repr

/-- The refusal of `t` where something else is wanted. -/
def refuse (wanted : Expectation) (t : Token) : Step :=
  .reject ⟨.misplaced wanted t, t.offset⟩

/-- A token where an operand may start. -/
def stepOperand (g : Grammar) (s : State) (t : Token) : Step :=
  match g, t.kind with
  | _, .leftParen => .shift ⟨.operand, .empty, (t.offset, s.level) :: s.enclosing⟩
  | .arithmetic, .number n => .shift { s with awaiting := .operator (.number n) }
  | .query, .identifier name =>
    match FieldPath.ofName? name with
    | some field => .shift { s with awaiting := .comparator field }
    | none => .reject ⟨.invalidPath, t.offset⟩
  | .arithmetic, _ => refuse .number t
  | .query, _ => refuse .condition t

/-- A token behind a field. -/
def stepComparator (s : State) (field : FieldPath) (t : Token) : Step :=
  match t.kind with
  | .comparator op => .shift { s with awaiting := .literal field op }
  | _ => refuse (.comparator field) t

/-- A token behind a comparator. -/
def stepLiteral (s : State) (field : FieldPath) (op : Comparator) (t : Token) : Step :=
  match t.kind with
  | .string text => .shift { s with awaiting := .operator (.comparison field op (.string text)) }
  | .number n =>
    if op = .like then .reject ⟨.patternRequired, t.offset⟩
    else .shift { s with awaiting := .operator (.comparison field op (.integer n)) }
  | _ => refuse (.literal op) t

/-- A token that is no operator, behind `operand`. -/
def stepClosing (s : State) (operand : Expr) (t : Token) : Step :=
  match s.enclosing with
  | [] =>
    if t.isEnd then .accept (s.level.close operand) else .reject ⟨.trailing t, t.offset⟩
  | (opening, outer) :: enclosing =>
    if t.kind = .rightParen then
      .shift ⟨.operator (.grouping (s.level.close operand)), outer, enclosing⟩
    else refuse (.closing opening) t

/-- What `t` makes of a sentence of which `s` has been read. -/
def step (g : Grammar) (s : State) (t : Token) : Step :=
  match s.awaiting with
  | .operand => g.stepOperand s t
  | .comparator field => stepComparator s field t
  | .literal field op => stepLiteral s field op t
  | .operator operand =>
    match g.operator? t with
    | some op => .shift { s with awaiting := .operand, level := s.level.push operand op }
    | none => stepClosing s operand t

/-- The end of the text is never taken into a sentence. -/
theorem isEnd_of_step_eq_shift {g : Grammar} {s next : State} {t : Token}
    (h : g.step s t = .shift next) : t.isEnd = false := by
  cases ht : t.kind with
  | finish =>
    cases g <;> cases s with
    | mk awaiting level enclosing =>
      cases awaiting <;> cases enclosing <;>
        simp [step, stepOperand, stepComparator, stepLiteral, stepClosing, operator?, refuse,
          Token.isEnd, ht] at h
  | _ => simp [Token.isEnd, ht]

end Grammar
end RecordQuery
