import RecordQuery.Proofs.Moves
import Mathlib.Data.Set.Function

/-!
# The parser recognises the two grammars

A text is accepted exactly when it is a sentence, and the answer is the one tree that the sentence
writes.  Both halves are proved for runs of moves.

*Soundness* is an invariant.  `State.symbols` is everything that a state has taken in, written out
in order, and `State.Sound` says that its operands are trees of the grammar and that its operators
wait where they may.  A move keeps the state sound and adds the symbol of its token, so nothing is
dropped, moved or read twice.

*Completeness* is an induction on the tree.  The tree is read from whatever level has room for it
(`Level.HasRoom`), which fails only where grouping to the left or a tighter operator on the outside
would take the tree apart.

* `sound_of_move`, `symbols_of_move`: what one move keeps.
* `readable_of_admits`: a tree of the grammar is read from its tokens.
* `query_parse_recognises`, `arithmetic_parse_recognises`: the two grammars.
-/

set_option autoImplicit false

namespace RecordQuery
namespace Grammar

/-! ## What a state has taken in -/

/-- The symbols of a left operand and its operator. -/
def Pending.symbols (p : Pending) : List Symbol := p.left.symbols ++ [p.operator.symbol]

namespace Level

/-- The symbols of the loose operator that waits. -/
def looseSymbols (l : Level) : List Symbol := l.loose.elim [] Pending.symbols

/-- The symbols of the tight operator that waits. -/
def tightSymbols (l : Level) : List Symbol := l.tight.elim [] Pending.symbols

/-- The symbols between the innermost parenthesis and the operand to come. -/
def symbols (l : Level) : List Symbol := l.looseSymbols ++ l.tightSymbols

theorem symbols_closeTight (l : Level) (operand : Expr) :
    (l.closeTight operand).symbols = l.tightSymbols ++ operand.symbols := by
  rw [closeTight, tightSymbols]
  split
  · rename_i h; rw [h]; rfl
  · rename_i p h
    rw [h, Pending.complete, Expr.symbols_join, Option.elim_some, Pending.symbols,
      List.append_assoc, List.singleton_append]

theorem symbols_close (l : Level) (operand : Expr) :
    (l.close operand).symbols = l.symbols ++ operand.symbols := by
  rw [close, symbols, looseSymbols]
  split
  · rename_i h; rw [h, symbols_closeTight]; rfl
  · rename_i p h
    rw [h, Pending.complete, Expr.symbols_join, symbols_closeTight, Option.elim_some,
      Pending.symbols]
    simp only [List.append_assoc, List.cons_append, List.nil_append]

theorem symbols_push (l : Level) (operand : Expr) (op : Operator) :
    (l.push operand op).symbols = l.symbols ++ operand.symbols ++ [op.symbol] := by
  rw [push]
  split
  · simp only [symbols, looseSymbols, tightSymbols, Option.elim_some, Pending.symbols,
      symbols_closeTight, List.append_assoc]
  · rw [← symbols_close]
    exact List.append_nil _

end Level

/-- The symbols of an operand begun. -/
def Awaiting.symbols : Awaiting → List Symbol
  | operand => []
  | comparator path => [.plain (.identifier path.name)]
  | literal path op => [.plain (.identifier path.name), .plain (.comparator op)]
  | operator e => e.symbols

/-- The symbols before the innermost open parenthesis, and the parenthesis. -/
def enclosingSymbols : List (Nat × Level) → List Symbol
  | [] => []
  | (_, outer) :: enclosing => enclosingSymbols enclosing ++ outer.symbols ++ [.plain .leftParen]

/-- Everything that has been read. -/
def State.symbols (s : State) : List Symbol :=
  enclosingSymbols s.enclosing ++ s.level.symbols ++ s.awaiting.symbols

/-! ## Sound states -/

/-- The waiting operators belong to the grammar and have left operands that they take. -/
structure Level.Sound (g : Grammar) (l : Level) : Prop where
  /-- Whatever is a tree may stand to the left of a loose operator. -/
  loose : ∀ p ∈ l.loose, p.operator.grammar = g ∧ p.operator.isTight = false ∧ g.Admits p.left
  /-- A bare loose operation may not stand to the left of a tight operator. -/
  tight : ∀ p ∈ l.tight, p.operator.grammar = g ∧ p.operator.isTight = true ∧ g.Admits p.left ∧
    p.left.isLoose = false

/-- `e` is a tree of the grammar and not a bare operation, so it may stand anywhere. -/
structure IsOperand (g : Grammar) (e : Expr) : Prop where
  admits : g.Admits e
  bare : e.bareOperator? = none

/-- What has been read of an operand is the beginning of one. -/
def Awaiting.Sound (g : Grammar) : Awaiting → Prop
  | operand => True
  | comparator path | literal path _ => g = .query ∧ ∀ s ∈ path.segments, '.' ∉ s.toList
  | operator e => g.IsOperand e

/-- The operand and all levels are sound. -/
structure State.Sound (g : Grammar) (s : State) : Prop where
  awaiting : s.awaiting.Sound g
  level : s.level.Sound g
  enclosing : ∀ outer ∈ s.enclosing, outer.2.Sound g

namespace IsOperand

variable {g : Grammar} {e : Expr}

theorem isLoose_eq_false (h : g.IsOperand e) : e.isLoose = false := by
  rw [Expr.isLoose, h.bare]; rfl

theorem isTight_eq_false (h : g.IsOperand e) : e.isTight = false := by
  rw [Expr.isTight, h.bare]; rfl

end IsOperand

namespace Level

variable {g : Grammar} {l : Level} {operand : Expr}

theorem sound_empty : empty.Sound g := ⟨nofun, nofun⟩

/-- A tight operator takes any operand, and makes nothing loose of it. -/
theorem Sound.closeTight (hl : l.Sound g) (h : g.IsOperand operand) :
    g.Admits (l.closeTight operand) ∧ (l.closeTight operand).isLoose = false := by
  rw [Level.closeTight]
  split
  · exact ⟨h.admits, h.isLoose_eq_false⟩
  · rename_i p hp
    obtain ⟨hgrammar, htight, hleft, hloose⟩ := hl.tight p hp
    have htakes : p.operator.Takes p.left operand := by
      rw [Operator.Takes, htight]
      exact ⟨hloose, h.isLoose_eq_false, h.isTight_eq_false⟩
    refine ⟨admits_join.mpr ⟨hgrammar, hleft, h.admits, htakes⟩, ?_⟩
    rw [Pending.complete, Expr.isLoose_join, htight]
    rfl

/-- A loose operator takes whatever is closed below it. -/
theorem Sound.close (hl : l.Sound g) (h : g.IsOperand operand) : g.Admits (l.close operand) := by
  obtain ⟨hadmits, hloose⟩ := hl.closeTight h
  rw [Level.close]
  split
  · exact hadmits
  · rename_i p hp
    obtain ⟨hgrammar, htight, hleft⟩ := hl.loose p hp
    have htakes : p.operator.Takes p.left (l.closeTight operand) := by
      rw [Operator.Takes, htight]
      exact hloose
    exact admits_join.mpr ⟨hgrammar, hleft, hadmits, htakes⟩

theorem Sound.push (hl : l.Sound g) (h : g.IsOperand operand) {op : Operator}
    (hop : op.grammar = g) : (l.push operand op).Sound g := by
  obtain ⟨hadmits, hloose⟩ := hl.closeTight h
  rw [Level.push]
  split
  · rename_i htight
    refine ⟨hl.loose, fun p hp ↦ ?_⟩
    cases hp
    exact ⟨hop, htight, hadmits, hloose⟩
  · rename_i htight
    refine ⟨fun p hp ↦ ?_, nofun⟩
    cases hp
    exact ⟨hop, Bool.not_eq_true _ ▸ htight, hl.close h⟩

end Level

/-! ## Soundness -/

theorem State.sound_initial (g : Grammar) : State.initial.Sound g :=
  ⟨trivial, Level.sound_empty, nofun⟩

/-- A move keeps the state sound. -/
theorem sound_of_move {g : Grammar} {s s' : State} {t : Token} (h : Move g s t s')
    (hs : s.Sound g) : s'.Sound g := by
  cases h with
  | opening h =>
    refine ⟨trivial, Level.sound_empty, fun outer ho ↦ ?_⟩
    rcases List.mem_cons.mp ho with rfl | ho
    · exact hs.level
    · exact hs.enclosing outer ho
  | number hg h => exact ⟨⟨hg, rfl⟩, hs.level, hs.enclosing⟩
  | field hg h hpath =>
    exact ⟨⟨hg, (FieldPath.ofName?_eq_some_iff.mp hpath).2⟩, hs.level, hs.enclosing⟩
  | comparator h => exact ⟨hs.awaiting, hs.level, hs.enclosing⟩
  | literal h hlike =>
    obtain ⟨hg, hdots⟩ := hs.awaiting
    exact ⟨⟨⟨hg, hdots, hlike⟩, rfl⟩, hs.level, hs.enclosing⟩
  | operator h =>
    exact ⟨trivial, hs.level.push hs.awaiting (operator?_eq_some_iff.mp h).1, hs.enclosing⟩
  | closing h =>
    have houter := hs.enclosing _ List.mem_cons_self
    have hinner : g.Admits (Expr.grouping _) := hs.level.close hs.awaiting
    exact ⟨⟨hinner, rfl⟩, houter, fun outer ho ↦ hs.enclosing outer (List.mem_cons_of_mem _ ho)⟩

/-- A token of another kind than the operators is kept as its kind. -/
theorem symbol_eq_plain {t : Token} {kind : Token.Kind} (h : t.kind = kind)
    (hop : ∀ op, kind ≠ .operator op) : t.symbol = .plain kind := by
  rw [Token.symbol]
  split
  · rename_i op hk; exact absurd (h.symm.trans hk) (hop op)
  · rw [h]

/-- A move adds the symbol of its token to what has been read. -/
theorem symbols_of_move {g : Grammar} {s s' : State} {t : Token} (h : Move g s t s') :
    s'.symbols = s.symbols ++ [t.symbol] := by
  cases h with
  | opening h =>
    rw [symbol_eq_plain h (by simp)]
    simp [State.symbols, enclosingSymbols, Awaiting.symbols, Level.empty, Level.symbols,
      Level.looseSymbols, Level.tightSymbols]
  | number hg h =>
    rw [symbol_eq_plain h (by simp)]
    simp [State.symbols, Awaiting.symbols, Expr.symbols]
  | field hg h hpath =>
    rw [symbol_eq_plain h (by simp), ← (FieldPath.ofName?_eq_some_iff.mp hpath).1]
    simp [State.symbols, Awaiting.symbols]
  | comparator h =>
    rw [symbol_eq_plain h (by simp)]
    simp [State.symbols, Awaiting.symbols]
  | @literal _ _ _ _ _ value h hlike =>
    rw [symbol_eq_plain h (by cases value <;> simp [Literal.kind])]
    simp [State.symbols, Awaiting.symbols, Expr.symbols]
  | operator h =>
    rw [(operator?_eq_some_iff.mp h).2]
    simp [State.symbols, Awaiting.symbols, Level.symbols_push]
  | closing h =>
    rw [symbol_eq_plain h (by simp)]
    simp [State.symbols, Awaiting.symbols, Expr.symbols, enclosingSymbols, Level.symbols_close]

/-- A run of moves keeps the state sound and adds the symbols of its tokens. -/
theorem sound_of_moves {g : Grammar} {s s' : State} {tokens : List Token}
    (h : Moves g s tokens s') (hs : s.Sound g) :
    s'.Sound g ∧ s'.symbols = s.symbols ++ tokens.map Token.symbol := by
  induction h with
  | nil => exact ⟨hs, (List.append_nil _).symm⟩
  | cons hmove _ ih =>
    obtain ⟨hsound, hsymbols⟩ := ih (sound_of_move hmove hs)
    refine ⟨hsound, ?_⟩
    rw [hsymbols, symbols_of_move hmove, List.append_assoc, List.map_cons, List.singleton_append]

/-- A run of moves that reads a sentence reads a tree of the grammar, and nothing besides. -/
theorem admits_of_moves {g : Grammar} {tokens : List Token} {operand : Expr} {l : Level}
    (h : Moves g .initial tokens ⟨.operator operand, l, []⟩) :
    g.Admits (l.close operand) ∧ tokens.map Token.symbol = (l.close operand).symbols := by
  obtain ⟨hsound, hsymbols⟩ := sound_of_moves h (State.sound_initial g)
  refine ⟨hsound.level.close hsound.awaiting, ?_⟩
  rw [Level.symbols_close]
  exact hsymbols.symm

/-! ## Completeness -/

/-- No operator that waits at `l` takes `e` apart. -/
structure Level.HasRoom (l : Level) (e : Expr) : Prop where
  loose : e.isLoose = true → l.loose = none ∧ l.tight = none
  tight : e.isTight = true → l.tight = none

/-- `operand` behind the operators of `l'` is `e` behind the operators of `l`, up to operators that
the next token may still close. -/
structure Level.Holds (l : Level) (e operand : Expr) (l' : Level) : Prop where
  bare : e.bareOperator? = none → operand = e ∧ l' = l
  tight : e.isLoose = false → l'.closeTight operand = l.closeTight e ∧ l'.loose = l.loose
  loose : l'.close operand = l.close e

namespace Level

variable {l : Level} {e : Expr}

theorem hasRoom_empty (e : Expr) : empty.HasRoom e := ⟨fun _ ↦ ⟨rfl, rfl⟩, fun _ ↦ rfl⟩

theorem closeTight_of_eq_none (h : l.tight = none) (e : Expr) : l.closeTight e = e := by
  rw [closeTight, h]

theorem close_of_eq_none (hloose : l.loose = none) (htight : l.tight = none) (e : Expr) :
    l.close e = e := by
  rw [close, hloose]
  exact closeTight_of_eq_none htight e

/-- Two levels with the same loose operator close alike when their tight operators do. -/
theorem close_congr {l' : Level} {e' : Expr} (h : l'.closeTight e' = l.closeTight e)
    (hloose : l'.loose = l.loose) : l'.close e' = l.close e := by
  rw [close, close, h, hloose]

theorem holds_self (l : Level) (e : Expr) : l.Holds e e l :=
  ⟨fun _ ↦ ⟨rfl, rfl⟩, fun _ ↦ ⟨rfl, rfl⟩, rfl⟩

end Level

/-- The tree is read from its tokens wherever there is room for it. -/
def Readable (g : Grammar) (e : Expr) : Prop :=
  ∀ (l : Level) (enclosing : List (Nat × Level)) (tokens : List Token), l.HasRoom e →
    tokens.map Token.symbol = e.symbols →
      ∃ operand l', Moves g ⟨.operand, l, enclosing⟩ tokens ⟨.operator operand, l', enclosing⟩ ∧
        l.Holds e operand l'

theorem bareOperator?_eq_none {e : Expr} (hloose : e.isLoose = false) (htight : e.isTight = false) :
    e.bareOperator? = none := by
  cases h : e.bareOperator? with
  | none => rfl
  | some op =>
    rw [Expr.isLoose, h, Option.any_some] at hloose
    rw [Expr.isTight, h, Option.any_some] at htight
    rw [htight] at hloose
    cases hloose

/-- An operation is read where its operands are.  The left operand is read first, its operators are
closed as far as the new operator allows, and the right operand is read behind it. -/
theorem readable_join {g : Grammar} (op : Operator) {left right : Expr} (hop : op.grammar = g)
    (htakes : op.Takes left right) (hleft : g.Readable left) (hright : g.Readable right) :
    g.Readable (op.join left right) := by
  intro l enclosing tokens hroom htokens
  rw [Expr.symbols_join, List.map_eq_append_iff] at htokens
  obtain ⟨leftTokens, others, rfl, hleftTokens, hothers⟩ := htokens
  obtain ⟨t, rightTokens, rfl, ht, hrightTokens⟩ := List.map_eq_cons_iff.mp hothers
  have hmove : g.operator? t = some op := operator?_eq_some_iff.mpr ⟨hop, ht⟩
  have hbare : (op.join left right).bareOperator? ≠ none := by
    rw [Expr.bareOperator?_join]; exact Option.some_ne_none op
  cases htight : op.isTight with
  | true =>
    rw [Operator.Takes, htight] at htakes
    obtain ⟨hleftLoose, hrightLoose, hrightTight⟩ := htakes
    have hltight : l.tight = none := hroom.tight (by
      rw [Expr.isTight, Expr.bareOperator?_join, Option.any_some, htight])
    obtain ⟨x, l₁, hmoves₁, hholds₁⟩ := hleft l enclosing leftTokens
      ⟨fun h ↦ absurd h (by simp [hleftLoose]), fun _ ↦ hltight⟩ hleftTokens
    have hpush : l₁.push x op = ⟨l.loose, some ⟨left, op⟩⟩ := by
      obtain ⟨hclose, hloose⟩ := hholds₁.tight hleftLoose
      rw [Level.push, if_pos htight, hclose, hloose, Level.closeTight_of_eq_none hltight]
    obtain ⟨y, l₂, hmoves₂, hholds₂⟩ := hright ⟨l.loose, some ⟨left, op⟩⟩ enclosing rightTokens
      ⟨fun h ↦ absurd h (by simp [hrightLoose]), fun h ↦ absurd h (by simp [hrightTight])⟩
      hrightTokens
    obtain ⟨rfl, rfl⟩ := hholds₂.bare (bareOperator?_eq_none hrightLoose hrightTight)
    have hclose : (Level.mk l.loose (some ⟨left, op⟩)).closeTight y =
        l.closeTight (op.join left y) := by
      rw [Level.closeTight_of_eq_none hltight]; rfl
    exact ⟨y, _, hmoves₁.append (.cons (.operator hmove) (hpush ▸ hmoves₂)),
      fun h ↦ absurd h hbare, fun _ ↦ ⟨hclose, rfl⟩, Level.close_congr hclose rfl⟩
  | false =>
    rw [Operator.Takes, htight] at htakes
    have hloose : (op.join left right).isLoose = true := by rw [Expr.isLoose_join, htight]; rfl
    obtain ⟨hlloose, hltight⟩ := hroom.loose hloose
    obtain ⟨x, l₁, hmoves₁, hholds₁⟩ := hleft l enclosing leftTokens
      ⟨fun _ ↦ ⟨hlloose, hltight⟩, fun _ ↦ hltight⟩ hleftTokens
    have hpush : l₁.push x op = ⟨some ⟨left, op⟩, none⟩ := by
      rw [Level.push, if_neg (by simp [htight]), hholds₁.loose,
        Level.close_of_eq_none hlloose hltight]
    obtain ⟨y, l₂, hmoves₂, hholds₂⟩ := hright ⟨some ⟨left, op⟩, none⟩ enclosing rightTokens
      ⟨fun h ↦ absurd h (by simp [htakes]), fun _ ↦ rfl⟩ hrightTokens
    have hclose : l₂.close y = l.close (op.join left right) := by
      rw [hholds₂.loose, Level.close_of_eq_none hlloose hltight]; rfl
    exact ⟨y, l₂, hmoves₁.append (.cons (.operator hmove) (hpush ▸ hmoves₂)),
      fun h ↦ absurd h hbare, fun h ↦ absurd h (by simp [hloose]), hclose⟩

theorem kind_eq_of_symbol_eq {t : Token} {kind : Token.Kind} (h : t.symbol = .plain kind) :
    t.kind = kind := by
  rw [← Token.symbol_kind, h]; rfl

/-- **Completeness**: a tree of the grammar is read from its tokens. -/
theorem readable_of_admits {g : Grammar} {e : Expr} (h : g.Admits e) : g.Readable e := by
  induction e with
  | string | field => exact h.elim
  | number n =>
    intro l enclosing tokens _ htokens
    obtain ⟨t, rfl, ht⟩ := List.map_eq_singleton_iff.mp htokens
    exact ⟨_, l, .single (.number h (kind_eq_of_symbol_eq ht)), l.holds_self _⟩
  | comparison path op value =>
    intro l enclosing tokens _ htokens
    obtain ⟨hg, hdots, hlike⟩ := h
    obtain ⟨t₁, _, rfl, ht₁, htokens⟩ := List.map_eq_cons_iff.mp htokens
    obtain ⟨t₂, _, rfl, ht₂, htokens⟩ := List.map_eq_cons_iff.mp htokens
    obtain ⟨t₃, rfl, ht₃⟩ := List.map_eq_singleton_iff.mp htokens
    have hfield : Move g ⟨.operand, l, enclosing⟩ t₁ ⟨.comparator path, l, enclosing⟩ :=
      .field hg (kind_eq_of_symbol_eq ht₁) (FieldPath.ofName?_name hdots)
    exact ⟨_, l, .cons hfield (.cons (.comparator (kind_eq_of_symbol_eq ht₂))
      (.single (.literal (kind_eq_of_symbol_eq ht₃) hlike))), l.holds_self _⟩
  | arithmetic op left right position ihl ihr =>
    obtain ⟨hg, hl, hr, htakes⟩ := h
    exact readable_join (.arithmetic op position) hg.symm htakes (ihl hl) (ihr hr)
  | logical connective left right ihl ihr =>
    obtain ⟨hg, hl, hr, htakes⟩ := h
    exact readable_join (.logical connective) hg.symm htakes (ihl hl) (ihr hr)
  | grouping inner ih =>
    intro l enclosing tokens _ htokens
    obtain ⟨opening, others, rfl, hopening, hothers⟩ := List.map_eq_cons_iff.mp htokens
    obtain ⟨innerTokens, closings, rfl, hinner, hclosings⟩ := List.map_eq_append_iff.mp hothers
    obtain ⟨closing, rfl, hclosing⟩ := List.map_eq_singleton_iff.mp hclosings
    obtain ⟨x, l', hmoves, hholds⟩ := ih h .empty ((opening.offset, l) :: enclosing) innerTokens
      (Level.hasRoom_empty inner) hinner
    have hgrouping : Move g ⟨.operator x, l', (opening.offset, l) :: enclosing⟩ closing
        ⟨.operator inner.grouping, l, enclosing⟩ := by
      have hclose : l'.close x = inner := hholds.loose
      exact hclose ▸ .closing (kind_eq_of_symbol_eq hclosing)
    exact ⟨_, l, .cons (.opening (kind_eq_of_symbol_eq hopening))
      (hmoves.append (.single hgrouping)), l.holds_self _⟩

/-- A tree of the grammar is read from its tokens and the end. -/
theorem read_of_admits {g : Grammar} {e : Expr} (h : g.Admits e) {tokens : List Token}
    (htokens : tokens.map Token.symbol = e.symbols) {last : Token} (hlast : last.isEnd = true)
    (rest : List (Except SyntaxError Token)) :
    g.read .initial (tokens.map .ok ++ .ok last :: rest) = some (.ok e) := by
  obtain ⟨x, l, hmoves, hholds⟩ :=
    readable_of_admits h .empty [] tokens (Level.hasRoom_empty e) htokens
  have hclose : l.close x = e := hholds.loose
  have hstep : g.step ⟨.operator x, l, []⟩ last = .accept e :=
    step_eq_accept_iff.mpr ⟨hlast, x, l, rfl, hclose⟩
  rw [State.initial, read_of_moves hmoves, read, hstep]

/-! ## The grammars -/

/-- A text is accepted exactly when its tokens are those of a tree of the grammar, and the answer is
that tree. -/
theorem parse_eq_ok_iff {g : Grammar} {text : String} {e : Expr} :
    (g.parse text).result = .ok e ↔
      ∃ tokens, (Lexer.ofText text).Yields tokens ∧ tokens.map Token.symbol = e.symbols ∧
        g.Admits e := by
  have hread := g.read_initial_tokens text
  constructor
  · intro h
    rw [h] at hread
    obtain ⟨tokens, last, rest, operand, l, hitems, hlast, hmoves, rfl⟩ := moves_of_read hread
    rw [Lexer.eq_nil_of_isEnd hitems hlast] at hitems
    obtain ⟨hadmits, hsymbols⟩ := admits_of_moves hmoves
    exact ⟨tokens, ⟨last, hlast, hitems⟩, hsymbols, hadmits⟩
  · rintro ⟨tokens, ⟨last, hlast, hitems⟩, hsymbols, hadmits⟩
    rw [hitems, read_of_admits hadmits hsymbols hlast, Option.some.injEq] at hread
    exact hread.symm

/-- The grammars are unambiguous: trees that write the same symbols are the same. -/
theorem symbols_injOn (g : Grammar) : Set.InjOn Expr.symbols {e | g.Admits e} := by
  intro e he e' he' h
  have hend : Token.isEnd ⟨.finish, "", 0⟩ = true := rfl
  have hread := read_of_admits he e.map_symbol_token hend []
  have hread' := read_of_admits he' (e.map_symbol_token.trans h) hend []
  rw [hread, Option.some.injEq, Except.ok.injEq] at hread'
  exact hread'

/-- **The query grammar**: the texts accepted as queries are those whose tokens are written by a
tree of the grammar, which is the answer, and no two trees are written by the same kinds of
tokens. -/
theorem query_parse_recognises :
    (∀ (text : String) (e : Expr), (query.parse text).result = .ok e ↔
      ∃ tokens, (Lexer.ofText text).Yields tokens ∧ tokens.map (·.kind) = e.kinds ∧
        query.Admits e) ∧
    Set.InjOn Expr.kinds {e | query.Admits e} := by
  refine ⟨fun text e ↦ ?_, fun e he e' he' h ↦ ?_⟩
  · rw [parse_eq_ok_iff]
    refine exists_congr fun tokens ↦ and_congr_right fun _ ↦ and_congr_left fun hadmits ↦ ?_
    exact (kinds_eq_iff hadmits).symm
  · refine symbols_injOn query he he' ?_
    rw [(symbols_eq_map_plain he).1, (symbols_eq_map_plain he').1, h]

/-- **The arithmetic grammar**: the texts accepted as arithmetic are those whose tokens are written
by a tree of the grammar, each operation at the offset of its operator, and that tree is the
answer; no two trees are written by the same tokens. -/
theorem arithmetic_parse_recognises :
    (∀ (text : String) (e : Expr), (arithmetic.parse text).result = .ok e ↔
      ∃ tokens, (Lexer.ofText text).Yields tokens ∧ tokens.map Token.symbol = e.symbols ∧
        arithmetic.Admits e) ∧
    Set.InjOn Expr.symbols {e | arithmetic.Admits e} :=
  ⟨fun _ _ ↦ parse_eq_ok_iff, symbols_injOn arithmetic⟩

end Grammar
end RecordQuery
