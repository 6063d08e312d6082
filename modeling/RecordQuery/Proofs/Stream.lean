import RecordQuery.Parser

/-!
# Reading from a stream of tokens

A parser asks its lexer for one token at a time.  Nothing it does depends on that: what it answers
is settled by the tokens that the lexer would yield if it were asked for all of them.
`Grammar.read` is the parser on such a stream, by recursion on the stream, and
`read_initial_tokens` says that it is the parser.

The stream of a text ends with the end token or with the first lexical error, and either one stands
nowhere else.  `Lexer.Yields` is the case without an error.

* `Lexer.tokens_of_read_ok`, `Lexer.tokens_of_read_error`: one item of a stream.
* `Lexer.Pulls`: the items that a lexer yields when it is asked until it has no more.
* `Lexer.pulls_iff`: these are its tokens.
* `Lexer.eq_nil_of_last`: nothing follows the end token or an error.
* `Parser.read_items`: a parser reads its items.
* `Grammar.read_initial_tokens`: the sentence that a text is, from the tokens of the text.
-/

set_option autoImplicit false

namespace RecordQuery

/-! ## The stream of a lexer -/

namespace Lexer

theorem tokens_of_read_error {l l' : Lexer} {e : SyntaxError} (h : l.read = (.error e, l')) :
    l.tokens = [.error e] := by
  rw [tokens]
  split
  · rename_i e' l'' h'
    rw [h] at h'
    cases h'
    rfl
  · rename_i t l'' h'
    rw [h] at h'
    cases h'

theorem tokens_of_read_ok {l l' : Lexer} {t : Token} (h : l.read = (.ok t, l')) :
    l.tokens = .ok t :: if t.isEnd then [] else l'.tokens := by
  rw [tokens]
  split
  · rename_i e l'' h'
    rw [h] at h'
    cases h'
  · rename_i t' l'' h'
    rw [h] at h'
    cases h'
    split <;> simp_all

/-- The lexer yields the items one after another, and then it has no more. -/
inductive Pulls : Lexer → List (Except SyntaxError Token) → Prop
  | nil {l l' : Lexer} (h : l.pull = (none, l')) : Pulls l []
  | cons {l l' : Lexer} {item : Except SyntaxError Token} {items : List (Except SyntaxError Token)}
      (h : l.pull = (some item, l')) (hs : Pulls l' items) : Pulls l (item :: items)

theorem pulls_of_finished {l : Lexer} (h : l.finished = true) : l.Pulls [] :=
  .nil (by rw [pull, if_pos h])

/-- What a lexer yields until it has no more are its tokens. -/
theorem pulls_tokens {l : Lexer} (h : l.finished = false) : l.Pulls l.tokens := by
  fun_induction tokens l with
  | case1 l e l' hread =>
    exact .cons (by rw [pull, h, hread]; rfl) (pulls_of_finished rfl)
  | case2 l t l' hread hend =>
    exact .cons (by rw [pull, h, hread]; rfl) (pulls_of_finished hend)
  | case3 l t l' hread hend hlt ih =>
    have hfinished : l'.finished = false := by
      rw [← h]; exact congrArg (fun r ↦ r.2.finished) hread.symm
    have hsame : { l' with finished := t.isEnd } = l' := by
      rw [eq_false_of_ne_true hend, ← hfinished]
    have hpull : l.pull = (some (.ok t), { l' with finished := t.isEnd }) := by
      rw [pull, h, hread]; rfl
    rw [hsame] at hpull
    exact .cons hpull (ih hfinished)

theorem Pulls.unique {l : Lexer} {items items' : List (Except SyntaxError Token)}
    (h : l.Pulls items) (h' : l.Pulls items') : items' = items := by
  induction h generalizing items' with
  | nil h =>
    cases h' with
    | nil => rfl
    | cons h' => rw [h] at h'; cases h'
  | cons h _ ih =>
    cases h' with
    | nil h' => rw [h] at h'; cases h'
    | cons h' hs' => rw [h] at h'; cases h'; rw [ih hs']

theorem pulls_iff {l : Lexer} (h : l.finished = false) {items : List (Except SyntaxError Token)} :
    l.Pulls items ↔ items = l.tokens :=
  ⟨fun h' ↦ (pulls_tokens h).unique h', fun h' ↦ h' ▸ pulls_tokens h⟩

/-- Nothing follows an error or the end token. -/
theorem eq_nil_of_last {l : Lexer} {items rest : List (Except SyntaxError Token)}
    {item : Except SyntaxError Token} (h : l.tokens = items ++ item :: rest)
    (hlast : ∀ t, item = .ok t → t.isEnd = true) : rest = [] := by
  induction items generalizing l with
  | nil =>
    rcases hread : l.read with ⟨e | t', l'⟩
    · rw [tokens_of_read_error hread, List.nil_append, List.cons.injEq] at h
      exact h.2.symm
    · rw [tokens_of_read_ok hread, List.nil_append, List.cons.injEq] at h
      obtain ⟨hhead, htail⟩ := h
      rw [← htail, if_pos (hlast t' hhead.symm)]
  | cons item' items ih =>
    rcases hread : l.read with ⟨e | t', l'⟩
    · rw [tokens_of_read_error hread, List.cons_append, List.cons.injEq] at h
      exact absurd h.2 (by simp)
    · rw [tokens_of_read_ok hread, List.cons_append, List.cons.injEq] at h
      cases ht' : t'.isEnd with
      | true => rw [ht', if_pos rfl] at h; exact absurd h.2 (by simp)
      | false => rw [ht'] at h; exact ih (by simpa using h.2)

theorem eq_nil_of_isEnd {l : Lexer} {items rest : List (Except SyntaxError Token)} {t : Token}
    (h : l.tokens = items ++ .ok t :: rest) (ht : t.isEnd = true) : rest = [] :=
  eq_nil_of_last h (by rintro _ ⟨⟩; exact ht)

theorem eq_nil_of_error {l : Lexer} {items rest : List (Except SyntaxError Token)}
    {e : SyntaxError} (h : l.tokens = items ++ .error e :: rest) : rest = [] :=
  eq_nil_of_last h nofun

/-- The lexer yields `tokens` and then the end, without an error. -/
def Yields (l : Lexer) (tokens : List Token) : Prop :=
  ∃ last : Token, last.isEnd = true ∧ l.tokens = tokens.map .ok ++ [.ok last]

theorem Yields.unique {l : Lexer} {tokens tokens' : List Token} (h : l.Yields tokens)
    (h' : l.Yields tokens') : tokens' = tokens := by
  obtain ⟨last, -, h⟩ := h
  obtain ⟨last', -, h'⟩ := h'
  obtain ⟨htokens, -⟩ := List.append_inj' (h'.symm.trans h) rfl
  exact (List.map_inj_right fun _ _ ↦ Except.ok.inj).mp htokens

end Lexer

/-! ## The parser on a stream -/

/-- Reads on from the part `s` of a sentence, along a stream.  There is no answer when the stream
breaks off. -/
def Grammar.read (g : Grammar) (s : State) :
    List (Except SyntaxError Token) → Option (Except SyntaxError Expr)
  | [] => none
  | .error e :: _ => some (.error e)
  | .ok t :: items =>
    match g.step s t with
    | .accept e => some (.ok e)
    | .reject e => some (.error e)
    | .shift next => g.read next items

namespace Parser

/-- What the parser has still to read: its current token and then the tokens of its lexer. -/
def items (p : Parser) : List (Except SyntaxError Token) :=
  .ok p.current :: if p.current.isEnd then [] else p.lexer.tokens

theorem read_of_consume_ok {p p' : Parser} (h : p.consume = (.ok (), p')) :
    p.lexer.read = (.ok p'.current, p'.lexer) := by
  unfold consume at h
  split at h
  · rename_i hread; cases h; exact hread
  · cases h

theorem read_of_consume_error {p p' : Parser} {e : SyntaxError}
    (h : p.consume = (.error e, p')) : p.lexer.read = (.error e, p'.lexer) := by
  unfold consume at h
  split at h
  · cases h
  · rename_i hread; cases h; exact hread

/-- What a parser answers is settled by its items. -/
theorem read_items (g : Grammar) (s : Grammar.State) (p : Parser) :
    g.read s p.items = some (p.run g s).1 := by
  fun_induction run g s p with
  | case1 s p e hstep => rw [items, Grammar.read, hstep]
  | case2 s p e hstep => rw [items, Grammar.read, hstep]
  | case3 s p next hstep e p' hconsume =>
    rw [items, Grammar.read, hstep, Grammar.isEnd_of_step_eq_shift hstep,
      Lexer.tokens_of_read_error (read_of_consume_error hconsume)]
    rfl
  | case4 s p next hstep p' hconsume hlt ih =>
    rw [items, Grammar.read, hstep, Grammar.isEnd_of_step_eq_shift hstep,
      Lexer.tokens_of_read_ok (read_of_consume_ok hconsume)]
    exact ih

end Parser

/-- The parser of a text reads the stream of the text. -/
theorem Grammar.read_initial_tokens (g : Grammar) (text : String) :
    g.read .initial (Lexer.ofText text).tokens = some (g.parse text).result := by
  rcases hread : (Lexer.ofText text).read with ⟨e | t, l⟩
  · have hparser : Parser.ofLexer (Lexer.ofText text) = .error e := by
      rw [Parser.ofLexer, hread]; rfl
    rw [Lexer.tokens_of_read_error hread, parse, hparser]
    rfl
  · have hparser : Parser.ofLexer (Lexer.ofText text) = .ok ⟨l, t, 0⟩ := by
      rw [Parser.ofLexer, hread]; rfl
    have hitems : (Lexer.ofText text).tokens = Parser.items ⟨l, t, 0⟩ :=
      Lexer.tokens_of_read_ok hread
    rw [hitems, Parser.read_items, parse, hparser, Logged.result_bind]
    change _ = some ((Parser.mk l t 0).parse g).1.result
    rw [Parser.parse]
    split
    · rename_i h
      rw [h]
    · rename_i h
      rw [h]
      rfl

end RecordQuery
