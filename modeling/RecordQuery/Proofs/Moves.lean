import RecordQuery.Proofs.Sentence
import RecordQuery.Proofs.Stream

/-!
# The moves of a parser

`Grammar.step` says what becomes of a token.  Here the same is said the other way round: `Move g`
lists the seven ways in which a token is taken into a sentence, and `move_of_step`, `step_of_move`
and `step_eq_accept_iff` say that there are no others.  Everything that is proved about a whole run
goes by cases on these moves, and `step` is not opened again.

`Moves g s tokens s'` is a run of moves.  A run does not care what follows it, which is
`read_of_moves`.
-/

set_option autoImplicit false

namespace RecordQuery
namespace Grammar

/-- The token `t` is taken into a sentence of which `s` has been read, and `s'` has been read
then. -/
inductive Move (g : Grammar) : State → Token → State → Prop
  /-- a parenthesis is opened -/
  | opening {l : Level} {enclosing : List (Nat × Level)} {t : Token} (h : t.kind = .leftParen) :
      Move g ⟨.operand, l, enclosing⟩ t ⟨.operand, .empty, (t.offset, l) :: enclosing⟩
  /-- a number stands as operand -/
  | number {l : Level} {enclosing : List (Nat × Level)} {t : Token} {n : Integer}
      (hg : g = .arithmetic) (h : t.kind = .number n) :
      Move g ⟨.operand, l, enclosing⟩ t ⟨.operator (.number n), l, enclosing⟩
  /-- a comparison starts with its field -/
  | field {l : Level} {enclosing : List (Nat × Level)} {t : Token} {name : String}
      {path : FieldPath} (hg : g = .query) (h : t.kind = .identifier name)
      (hpath : FieldPath.ofName? name = some path) :
      Move g ⟨.operand, l, enclosing⟩ t ⟨.comparator path, l, enclosing⟩
  /-- the comparator follows -/
  | comparator {l : Level} {enclosing : List (Nat × Level)} {t : Token} {path : FieldPath}
      {op : Comparator} (h : t.kind = .comparator op) :
      Move g ⟨.comparator path, l, enclosing⟩ t ⟨.literal path op, l, enclosing⟩
  /-- a literal ends the comparison -/
  | literal {l : Level} {enclosing : List (Nat × Level)} {t : Token} {path : FieldPath}
      {op : Comparator} {value : Literal} (h : t.kind = value.kind)
      (hlike : op = .like → ∃ pattern, value = .string pattern) :
      Move g ⟨.literal path op, l, enclosing⟩ t
        ⟨.operator (.comparison path op value), l, enclosing⟩
  /-- an operator follows an operand -/
  | operator {l : Level} {enclosing : List (Nat × Level)} {t : Token} {operand : Expr}
      {op : Operator} (h : g.operator? t = some op) :
      Move g ⟨.operator operand, l, enclosing⟩ t ⟨.operand, l.push operand op, enclosing⟩
  /-- the innermost parenthesis is closed -/
  | closing {l outer : Level} {opening : Nat} {enclosing : List (Nat × Level)} {t : Token}
      {operand : Expr} (h : t.kind = .rightParen) :
      Move g ⟨.operator operand, l, (opening, outer) :: enclosing⟩ t
        ⟨.operator (.grouping (l.close operand)), outer, enclosing⟩

/-! ## Operators and their tokens -/

theorem operator?_eq_some_iff {g : Grammar} {t : Token} {op : Operator} :
    g.operator? t = some op ↔ op.grammar = g ∧ t.symbol = op.symbol := by
  constructor
  · intro h
    simp only [operator?] at h
    split at h
    · rename_i hk; cases h; simp only [Token.symbol, hk]; exact ⟨rfl, rfl⟩
    · rename_i hk; cases h; simp only [Token.symbol, hk]; exact ⟨rfl, rfl⟩
    · cases h
  · rintro ⟨rfl, hsymbol⟩
    have hkind : t.kind = op.symbol.kind := by rw [← hsymbol, Token.symbol_kind]
    cases op with
    | arithmetic op position =>
      have hk : t.kind = .operator op := hkind
      simp only [Token.symbol, hk, Operator.symbol, Symbol.mk.injEq, Option.some.injEq] at hsymbol
      simp only [operator?, Operator.grammar, hk, hsymbol.2]
    | logical connective =>
      have hk : t.kind = .connective connective := hkind
      simp only [operator?, Operator.grammar, hk]

/-- A parenthesis or the end is no operator. -/
theorem operator?_eq_none {g : Grammar} {t : Token} (h : t.kind = .rightParen ∨ t.kind = .finish) :
    g.operator? t = none := by
  cases g <;> rcases h with h | h <;> simp only [operator?, h]

/-! ## Steps and moves -/

theorem move_of_step {g : Grammar} {s s' : State} {t : Token} (h : g.step s t = .shift s') :
    Move g s t s' := by
  obtain ⟨awaiting, l, enclosing⟩ := s
  cases awaiting with
  | operand =>
    simp only [step, stepOperand] at h
    split at h
    · rename_i hk; cases h; exact .opening hk
    · rename_i hk; cases h; exact .number rfl hk
    · rename_i hk
      split at h
      · rename_i path hpath; cases h; exact .field rfl hk hpath
      · cases h
    · cases h
    · cases h
  | comparator path =>
    simp only [step, stepComparator] at h
    split at h
    · rename_i hk; cases h; exact .comparator hk
    · cases h
  | literal path op =>
    simp only [step, stepLiteral] at h
    split at h
    · rename_i text hk; cases h; exact .literal hk fun _ ↦ ⟨text, rfl⟩
    · rename_i n hk
      split at h
      · cases h
      · rename_i hop; cases h; exact .literal hk fun hlike ↦ absurd hlike hop
    · cases h
  | operator operand =>
    simp only [step] at h
    split at h
    · rename_i op hop; cases h; exact .operator hop
    · cases enclosing with
      | nil => rw [stepClosing] at h; simp only at h; split at h <;> cases h
      | cons outer enclosing =>
        rw [stepClosing] at h
        simp only at h
        split at h
        · rename_i hk; cases h; exact .closing hk
        · cases h

theorem step_of_move {g : Grammar} {s s' : State} {t : Token} (h : Move g s t s') :
    g.step s t = .shift s' := by
  cases h with
  | opening h => cases g <;> simp only [step, stepOperand, h]
  | number hg h => rw [hg]; simp only [step, stepOperand, h]
  | field hg h hpath => rw [hg]; simp only [step, stepOperand, h, hpath]
  | comparator h => simp only [step, stepComparator, h]
  | @literal _ _ _ _ op value h hlike =>
    cases value with
    | string text => rw [Literal.kind] at h; simp only [step, stepLiteral, h]
    | integer n =>
      have hop : op ≠ .like := by
        intro hop
        obtain ⟨pattern, hpattern⟩ := hlike hop
        cases hpattern
      rw [Literal.kind] at h
      simp only [step, stepLiteral, h, if_neg hop]
  | operator h => simp only [step, h]
  | closing h => simp only [step, operator?_eq_none (.inl h), stepClosing, if_pos h]

/-- A sentence is complete exactly behind an operand outside all parentheses, at the end token. -/
theorem step_eq_accept_iff {g : Grammar} {s : State} {t : Token} {e : Expr} :
    g.step s t = .accept e ↔
      t.isEnd = true ∧ ∃ operand l, s = ⟨.operator operand, l, []⟩ ∧ l.close operand = e := by
  obtain ⟨awaiting, l, enclosing⟩ := s
  constructor
  · intro h
    cases awaiting with
    | operand =>
      simp only [step, stepOperand] at h
      split at h
      · cases h
      · cases h
      · split at h <;> cases h
      · cases h
      · cases h
    | comparator path =>
      simp only [step, stepComparator] at h
      split at h <;> cases h
    | literal path op =>
      simp only [step, stepLiteral] at h
      split at h
      · cases h
      · split at h <;> cases h
      · cases h
    | operator operand =>
      simp only [step] at h
      split at h
      · cases h
      · cases enclosing with
        | nil =>
          rw [stepClosing] at h
          simp only at h
          split at h
          · rename_i hend; cases h; exact ⟨hend, operand, l, rfl, rfl⟩
          · cases h
        | cons outer enclosing =>
          rw [stepClosing] at h
          simp only at h
          split at h <;> cases h
  · rintro ⟨hend, operand, l, hs, rfl⟩
    cases hs
    have hk : t.kind = .finish := by simpa [Token.isEnd] using hend
    simp only [step, operator?_eq_none (.inr hk), stepClosing, if_pos hend]

/-! ## Runs of moves -/

/-- The tokens are taken in one after another. -/
inductive Moves (g : Grammar) : State → List Token → State → Prop
  | nil {s : State} : Moves g s [] s
  | cons {s s' s'' : State} {t : Token} {tokens : List Token} (h : Move g s t s')
      (hs : Moves g s' tokens s'') : Moves g s (t :: tokens) s''

theorem Moves.append {g : Grammar} {s s' s'' : State} {tokens tokens' : List Token}
    (h : Moves g s tokens s') (h' : Moves g s' tokens' s'') :
    Moves g s (tokens ++ tokens') s'' := by
  induction h with
  | nil => exact h'
  | cons hmove _ ih => exact .cons hmove (ih h')

theorem Moves.single {g : Grammar} {s s' : State} {t : Token} (h : Move g s t s') :
    Moves g s [t] s' :=
  .cons h .nil

/-- What is read behind a run of moves does not depend on the run. -/
theorem read_of_moves {g : Grammar} {s s' : State} {tokens : List Token} (h : Moves g s tokens s')
    (items : List (Except SyntaxError Token)) :
    g.read s (tokens.map .ok ++ items) = g.read s' items := by
  induction h with
  | nil => rfl
  | cons hmove _ ih => rw [List.map_cons, List.cons_append, read, step_of_move hmove]; exact ih

/-- A tree is read from a stream by a run of moves up to the end token. -/
theorem moves_of_read {g : Grammar} {s : State} {items : List (Except SyntaxError Token)}
    {e : Expr} (h : g.read s items = some (.ok e)) :
    ∃ tokens last rest operand l, items = tokens.map .ok ++ .ok last :: rest ∧
      last.isEnd = true ∧ Moves g s tokens ⟨.operator operand, l, []⟩ ∧ l.close operand = e := by
  induction items generalizing s with
  | nil => cases h
  | cons item items ih =>
    cases item with
    | error err => cases h
    | ok t =>
      rw [read] at h
      split at h
      · rename_i hstep
        cases h
        obtain ⟨hend, operand, l, rfl, hclose⟩ := step_eq_accept_iff.mp hstep
        exact ⟨[], t, items, operand, l, rfl, hend, .nil, hclose⟩
      · cases h
      · rename_i next hstep
        obtain ⟨tokens, last, rest, operand, l, rfl, hend, hmoves, hclose⟩ := ih h
        exact ⟨t :: tokens, last, rest, operand, l, rfl, hend,
          .cons (move_of_step hstep) hmoves, hclose⟩

end Grammar
end RecordQuery
