import RecordQuery.Grammar

/-!
# Sentences as trees

A tree of either grammar is one way to write down a sequence of tokens.  This file says which
sequence that is and which trees are allowed to write one, without reference to how a sentence is
read: `Expr.symbols` writes a tree out in order, and `Grammar.Admits` is the shape a tree of a
grammar has.  What the parser does is compared with these two in `Proofs/Recognition.lean`.

* `Expr.symbols`: what a tree keeps of its tokens, from left to right.  This is the kind of each
  token and, for an arithmetic operator, where it stands.
* `Expr.kinds`: the kinds alone.
* `Grammar.Admits`: only nodes of the grammar occur, and an operand that is an operation without
  parentheses binds tight enough for its place.
* `query_induction`: induction on the tree of a query.
* `kinds_eq_iff`: a query keeps nothing but kinds, so its kinds settle its symbols.
-/

set_option autoImplicit false

namespace RecordQuery

/-! ## Writing a tree out -/

/-- What a tree keeps of a token. -/
structure Symbol where
  kind : Token.Kind
  /-- where the token stands, when the tree says so -/
  offset? : Option Nat
deriving DecidableEq, Repr

namespace Symbol

/-- A token of which only the kind is kept. -/
def plain (kind : Token.Kind) : Symbol := ⟨kind, none⟩

/-- Some token that a tree keeps as `σ`. -/
def token (σ : Symbol) : Token := ⟨σ.kind, "", σ.offset?.getD 0⟩

end Symbol

/-- What a tree keeps of `t`: its kind, and where an arithmetic operator stands. -/
def Token.symbol (t : Token) : Symbol :=
  match t.kind with
  | .operator op => ⟨.operator op, some t.offset⟩
  | kind => .plain kind

theorem Token.symbol_kind (t : Token) : t.symbol.kind = t.kind := by
  rw [symbol]
  split
  · rename_i h; exact h.symm
  · rfl

/-- The kind of the token that a literal is. -/
def Literal.kind : Literal → Token.Kind
  | string text => .string text
  | integer value => .number value

namespace Grammar.Operator

/-- The grammar that an operator belongs to. -/
def grammar : Operator → Grammar
  | arithmetic .. => .arithmetic
  | logical _ => .query

/-- What a tree keeps of the token of an operator. -/
def symbol : Operator → Symbol
  | arithmetic op position => ⟨.operator op, some position⟩
  | logical connective => .plain (.connective connective)

end Grammar.Operator

namespace Expr

/-- The tokens of a tree in order, as far as the tree keeps them. -/
def symbols : Expr → List Symbol
  | number n => [.plain (.number n)]
  | string text => [.plain (.string text)]
  | field path => [.plain (.identifier path.name)]
  | arithmetic op left right position =>
    left.symbols ++ (Grammar.Operator.arithmetic op position).symbol :: right.symbols
  | comparison path op value =>
    [.plain (.identifier path.name), .plain (.comparator op), .plain value.kind]
  | logical connective left right =>
    left.symbols ++ (Grammar.Operator.logical connective).symbol :: right.symbols
  | grouping inner => .plain .leftParen :: (inner.symbols ++ [.plain .rightParen])

/-- The kinds of the tokens of a tree in order. -/
def kinds (e : Expr) : List Token.Kind := e.symbols.map (·.kind)

theorem symbols_join (op : Grammar.Operator) (left right : Expr) :
    (op.join left right).symbols = left.symbols ++ op.symbol :: right.symbols := by
  cases op <;> rfl

theorem kinds_logical (connective : Connective) (left right : Expr) :
    (logical connective left right).kinds =
      left.kinds ++ .connective connective :: right.kinds := by
  rw [kinds, symbols, List.map_append, List.map_cons]
  rfl

theorem kinds_grouping (inner : Expr) :
    inner.grouping.kinds = .leftParen :: (inner.kinds ++ [.rightParen]) := by
  rw [kinds, symbols, List.map_cons, List.map_append]
  rfl

/-- Every tree is written by some sequence of tokens. -/
theorem map_symbol_token (e : Expr) :
    (e.symbols.map Symbol.token).map Token.symbol = e.symbols := by
  induction e with
  | number | string | field => rfl
  | comparison path op value => cases value <;> rfl
  | arithmetic op left right position ihl ihr =>
    simp only [symbols, List.map_append, List.map_cons, ihl, ihr]
    rfl
  | logical connective left right ihl ihr =>
    simp only [symbols, List.map_append, List.map_cons, ihl, ihr]
    rfl
  | grouping inner ih =>
    simp only [symbols, List.map_append, List.map_cons, ih]
    rfl

/-! ## How tight a tree binds -/

/-- The operator at the root of a tree that stands in no parentheses. -/
def bareOperator? : Expr → Option Grammar.Operator
  | arithmetic op _ _ position => some (.arithmetic op position)
  | logical connective _ _ => some (.logical connective)
  | _ => none

/-- Whether the tree is a bare sum or difference, or a bare `OR`. -/
def isLoose (e : Expr) : Bool := e.bareOperator?.any fun op ↦ !op.isTight

/-- Whether the tree is a bare product or quotient, or a bare `AND`. -/
def isTight (e : Expr) : Bool := e.bareOperator?.any Grammar.Operator.isTight

theorem bareOperator?_join (op : Grammar.Operator) (left right : Expr) :
    (op.join left right).bareOperator? = some op := by
  cases op <;> rfl

@[simp] theorem isLoose_join (op : Grammar.Operator) (left right : Expr) :
    (op.join left right).isLoose = !op.isTight := by
  rw [isLoose, bareOperator?_join, Option.any_some]

end Expr

/-! ## The trees of a grammar -/

namespace Grammar

/-- The operands an operator takes without parentheses around them.  Operators of equal strength
group to the left, so the right operand binds tighter than the operator and the left operand at
least as tight. -/
def Operator.Takes (op : Operator) (left right : Expr) : Prop :=
  match op.isTight with
  | true => left.isLoose = false ∧ right.isLoose = false ∧ right.isTight = false
  | false => right.isLoose = false

/-- The trees of a grammar.  Arithmetic is made of numbers; queries are made of comparisons of a
path without dots inside its segments, and `LIKE` compares with a string. -/
def Admits (g : Grammar) : Expr → Prop
  | .number _ => g = .arithmetic
  | .arithmetic op left right position =>
    g = .arithmetic ∧ g.Admits left ∧ g.Admits right ∧
      (Operator.arithmetic op position).Takes left right
  | .comparison path op value =>
    g = .query ∧ (∀ s ∈ path.segments, '.' ∉ s.toList) ∧
      (op = .like → ∃ pattern, value = .string pattern)
  | .logical connective left right =>
    g = .query ∧ g.Admits left ∧ g.Admits right ∧ (Operator.logical connective).Takes left right
  | .grouping inner => g.Admits inner
  | .string _ | .field _ => False

theorem admits_join {g : Grammar} {op : Operator} {left right : Expr} :
    g.Admits (op.join left right) ↔
      op.grammar = g ∧ g.Admits left ∧ g.Admits right ∧ op.Takes left right := by
  cases op <;> cases g <;> simp [Operator.join, Admits, Operator.grammar]

/-- What holds of every comparison of a query, and of a connective or a grouping when it holds of
the operands, holds of every query. -/
@[elab_as_elim] theorem query_induction {motive : (e : Expr) → query.Admits e → Prop}
    (comparison : ∀ path op value (h : query.Admits (.comparison path op value)), motive _ h)
    (logical : ∀ connective left right (h : query.Admits (.logical connective left right))
      (hl : query.Admits left) (hr : query.Admits right), motive left hl → motive right hr →
        motive _ h)
    (grouping : ∀ inner (h : query.Admits inner), motive inner h → motive (.grouping inner) h)
    (e : Expr) (h : query.Admits e) : motive e h := by
  induction e with
  | number | arithmetic => exact absurd h (by simp [Admits])
  | string | field => exact h.elim
  | comparison path op value => exact comparison path op value h
  | logical connective left right ihl ihr =>
    obtain ⟨-, hl, hr, -⟩ := id h
    exact logical connective left right h hl hr (ihl hl) (ihr hr)
  | grouping inner ih => exact grouping inner h (ih h)

/-! ## Queries keep nothing but kinds -/

/-- Every token of a query is kept as its kind alone, and none of them is an arithmetic
operator. -/
theorem symbols_eq_map_plain {e : Expr} (h : query.Admits e) :
    e.symbols = e.kinds.map .plain ∧ ∀ op, Token.Kind.operator op ∉ e.kinds := by
  induction e, h using query_induction with
  | comparison path op value _ =>
    cases value <;> simp [Expr.kinds, Expr.symbols, Symbol.plain, Literal.kind]
  | logical connective left right _ _ _ ihl ihr =>
    rw [Expr.kinds_logical, List.map_append, List.map_cons, ← ihl.1, ← ihr.1]
    refine ⟨rfl, fun op hop ↦ ?_⟩
    rcases List.mem_append.mp hop with hop | hop
    · exact ihl.2 op hop
    · rcases List.mem_cons.mp hop with hop | hop
      · exact nomatch hop
      · exact ihr.2 op hop
  | grouping inner _ ih =>
    obtain ⟨hsymbols, hplain⟩ := ih
    rw [Expr.kinds_grouping, List.map_cons, List.map_append, ← hsymbols]
    exact ⟨rfl, fun op ↦ by simpa using hplain op⟩

/-- The kinds of a sequence of tokens settle what a query keeps of it. -/
theorem kinds_eq_iff {e : Expr} (h : query.Admits e) {tokens : List Token} :
    tokens.map (·.kind) = e.kinds ↔ tokens.map Token.symbol = e.symbols := by
  obtain ⟨hsymbols, hplain⟩ := symbols_eq_map_plain h
  constructor
  · intro hkinds
    rw [hsymbols, ← hkinds, List.map_map]
    refine List.map_congr_left fun t ht ↦ ?_
    have hop : ∀ op, t.kind ≠ .operator op := fun op hop ↦
      hplain op (hkinds ▸ hop ▸ List.mem_map_of_mem ht)
    rw [Token.symbol]
    split
    · rename_i op hkind; exact absurd hkind (hop op)
    · rfl
  · intro hsymbol
    rw [Expr.kinds, ← hsymbol, List.map_map]
    exact List.map_congr_left fun t _ ↦ t.symbol_kind.symm

end Grammar
end RecordQuery
