import RecordQuery.Proofs.Descent

/-!
# How much is read

A text of `n` characters has at most `n` tokens, and a parser asks for each of them once.  What a
call does is therefore bounded before it starts, whether the text is a sentence or not, and also
when earlier calls have failed in the middle of the text.

Calls for parentheses are counted along the descent.  `Parser.Return.Takes` says which tokens a
function has consumed: the next ones that are to come, with a call for every parenthesis that opens
among them.  It holds of a function when it holds of those that it calls.

* `Lexer.leading`, `Parser.pending`: the tokens to come.
* `Parser.Return.Takes`, `Parser.counted_descent`: the tokens that are consumed.
* `Grammar.Moves.length_enclosing_le`: the parentheses that wait on the stack.
* `Parser.Within`: what a call may cost.
* `reading_bounded`: every text, and every call of every parser.
-/

set_option autoImplicit false

namespace RecordQuery

/-- Whether the token opens a parenthesis. -/
def Token.isOpening (t : Token) : Bool := t.kind = .leftParen

theorem Token.isOpening_eq_false {t : Token} {kind : Token.Kind} (h : t.kind = kind)
    (hkind : decide (kind = .leftParen) = false) : t.isOpening = false :=
  decide_eq_false (h ▸ of_decide_eq_false hkind)

/-! ## Tokens to come -/

namespace Lexer

variable {l l' : Lexer}

/-- The tokens that the lexer yields before the end of the text or the first error. -/
def leading (l : Lexer) : List Token :=
  (l.tokens.filterMap Except.toOption).filter (!·.isEnd)

theorem leading_of_error {e : SyntaxError} (h : l.read = (.error e, l')) : l.leading = [] := by
  rw [leading, tokens_of_read_error h]
  rfl

theorem leading_of_ok {t : Token} (h : l.read = (.ok t, l')) :
    l.leading = if t.isEnd then [] else t :: l'.leading := by
  rw [leading, tokens_of_read_ok h]
  cases hend : t.isEnd <;> simp [Except.toOption, hend, leading]

/-- Behind these tokens the lexer yields one more item. -/
theorem length_tokens (l : Lexer) : l.tokens.length = l.leading.length + 1 := by
  fun_induction tokens l with
  | case1 l e l' hread => rw [leading_of_error hread]; rfl
  | case2 l t l' hread hend => rw [leading_of_ok hread, if_pos hend]; rfl
  | case3 l t l' hread hend hlt ih =>
    rw [leading_of_ok hread, if_neg hend, List.length_cons, List.length_cons, ih]

/-- Each of the tokens takes a character at least. -/
theorem length_leading_le (l : Lexer) : l.leading.length ≤ l.rest.length := by
  fun_induction tokens l with
  | case1 l e l' hread => rw [leading_of_error hread]; exact Nat.zero_le _
  | case2 l t l' hread hend => rw [leading_of_ok hread, if_pos hend]; exact Nat.zero_le _
  | case3 l t l' hread hend hlt ih =>
    rw [leading_of_ok hread, if_neg hend, List.length_cons]
    omega

end Lexer

namespace Parser

variable {g : Grammar} {p q : Parser}

/-- The tokens that have not been consumed, up to the end of the text or the first error. -/
def pending (p : Parser) : List Token :=
  if p.current.isEnd then [] else p.current :: p.lexer.leading

theorem pending_of_consume_ok (hend : p.current.isEnd = false) (h : p.consume = (.ok (), q)) :
    p.pending = p.current :: q.pending := by
  rw [pending, hend, if_neg Bool.false_ne_true, Lexer.leading_of_ok (read_of_consume_ok h)]
  rfl

theorem length_pending_le (p : Parser) : p.pending.length ≤ p.remaining := by
  rw [pending, remaining]
  split
  · exact Nat.le_refl 0
  · exact Nat.succ_le_succ p.lexer.length_leading_le

/-! ## Tokens consumed -/

namespace Return

/-- The function has consumed `tokens`. -/
structure Takes (r : Return p) (tokens : List Token) : Prop where
  counter : r.parser.consumed = p.consumed + tokens.length
  /-- They were the next ones to come, and the others still are unless there was an error. -/
  pending : ∃ rest, p.pending = tokens ++ rest ∧ ∀ x, r.result = .ok x → rest = r.parser.pending

/-- The function has consumed tokens, and a call was made for each parenthesis that opens among
them. -/
def Counted (r : Return p) : Prop :=
  ∃ tokens, r.Takes tokens ∧ r.calls.openings = tokens.filter Token.isOpening

theorem counted_done (e : Expr) : (done p e).Counted :=
  ⟨[], ⟨rfl, p.pending, rfl, fun _ _ ↦ rfl⟩, rfl⟩

theorem counted_fail (e : SyntaxError) : (fail p e).Counted :=
  ⟨[], ⟨rfl, p.pending, rfl, by rintro _ ⟨⟩⟩, rfl⟩

/-- What one function has left to come, the next one consumes. -/
theorem Counted.andThen {r : Return p} {f : Expr → (q : Parser) → p.Reaches q → Return q}
    (h : r.Counted) (hf : ∀ x q hq, (f x q hq).Counted) : (r.andThen f).Counted := by
  obtain ⟨e | x, q, calls, hq⟩ := r
  · obtain ⟨tokens, ⟨hcounter, rest, hpending, -⟩, hopenings⟩ := h
    exact ⟨tokens, ⟨hcounter, rest, hpending, by rintro _ ⟨⟩⟩, hopenings⟩
  · obtain ⟨tokens, ⟨hcounter, rest, hpending, hrest⟩, hopenings⟩ := h
    obtain ⟨others, ⟨hcounter', rest', hpending', hrest'⟩, hopenings'⟩ := hf x q hq
    have hcounter : q.consumed = p.consumed + tokens.length := hcounter
    have hrest : rest = q.pending := hrest x rfl
    have hopenings : calls.openings = tokens.filter Token.isOpening := hopenings
    refine ⟨tokens ++ others, ⟨?_, rest', ?_, hrest'⟩, ?_⟩
    · rw [List.length_append, ← Nat.add_assoc, ← hcounter]
      exact hcounter'
    · rw [hpending, hrest, hpending', List.append_assoc]
    · rw [List.filter_append, ← hopenings, ← hopenings', ← Calls.openings_append]
      rfl

end Return

variable {hend : p.current.isEnd = false} {f : (q : Parser) → p.consume = (.ok (), q) → Return q}

/-- The current token is consumed as the first of those to come, unless there is an error in place
of the next one. -/
theorem counted_behind_of_takes (hf : ∀ q hq, ∃ tokens, (f q hq).Takes tokens ∧
    (f q hq).calls.openings = (p.current :: tokens).filter Token.isOpening) :
    (p.behind hend f).Counted := by
  rcases hconsume : p.consume with ⟨e | ⟨⟩, q⟩
  · -- the current token is not consumed, and a call that was to be made for it is not made
    rw [behind_of_error hconsume]
    rw [consume_of_answer_error (answer_of_consume_error hconsume)] at hconsume
    cases hconsume
    exact ⟨[], ⟨rfl, p.pending, rfl, by rintro _ ⟨⟩⟩, rfl⟩
  · obtain ⟨tokens, ⟨hcounter, rest, hpending, hrest⟩, hopenings⟩ := hf q hconsume
    rw [behind_of_ok hconsume]
    refine ⟨p.current :: tokens, ⟨?_, rest, ?_, hrest⟩, hopenings⟩
    · simp only [hcounter, consumed_of_consume_ok hconsume, List.length_cons]
      omega
    · rw [pending_of_consume_ok hend hconsume, hpending, List.cons_append]

theorem counted_behind (hopening : p.current.isOpening = false) (hf : ∀ q hq, (f q hq).Counted) :
    (p.behind hend f).Counted := by
  refine counted_behind_of_takes fun q hq ↦ ?_
  obtain ⟨tokens, htakes, hopenings⟩ := hf q hq
  refine ⟨tokens, htakes, ?_⟩
  rw [hopenings, List.filter_cons, hopening, if_neg Bool.false_ne_true]

/-- A parenthesis that is consumed where it opens has a call made for it. -/
theorem counted_enter {hopen : p.current.kind = .leftParen} (hf : ∀ q hq, (f q hq).Counted) :
    (p.enter hopen f).Counted := by
  refine counted_behind_of_takes fun q hq ↦ ?_
  obtain ⟨tokens, ⟨hcounter, hpending⟩, hopenings⟩ := hf q hq
  have hopening : p.current.isOpening = true := decide_eq_true hopen
  refine ⟨tokens, ⟨hcounter, hpending⟩, ?_⟩
  rw [List.filter_cons, hopening, if_pos rfl, ← hopenings, Return.within, Calls.openings,
    Calls.openings, List.append_nil]

theorem counted_closing (p : Parser) (opening : Nat) (e : Expr) :
    (p.closing opening e).Counted := by
  rw [closing]
  split
  · rename_i h
    exact counted_behind (Token.isOpening_eq_false h rfl) fun _ _ ↦ Return.counted_done _
  · exact Return.counted_fail _

theorem counted_literal (p : Parser) (field : FieldPath) (op : Comparator) :
    (p.literal field op).Counted := by
  rw [literal]
  split
  · rename_i text h
    exact counted_behind (Token.isOpening_eq_false h rfl) fun _ _ ↦ Return.counted_done _
  · rename_i n h
    split
    · exact Return.counted_fail _
    · exact counted_behind (Token.isOpening_eq_false h rfl) fun _ _ ↦ Return.counted_done _
  · exact Return.counted_fail _

theorem counted_comparison (p : Parser) (field : FieldPath) : (p.comparison field).Counted := by
  rw [comparison]
  split
  · rename_i op h
    exact counted_behind (Token.isOpening_eq_false h rfl) fun q _ ↦ q.counted_literal field op
  · exact Return.counted_fail _

theorem counted_atom (p : Parser) (g : Grammar) : (p.atom g).Counted := by
  cases g with
  | arithmetic =>
    rw [atom]
    split
    · rename_i n h
      exact counted_behind (Token.isOpening_eq_false h rfl) fun _ _ ↦ Return.counted_done _
    · exact Return.counted_fail _
  | query =>
    rw [atom]
    split
    · rename_i name h
      refine counted_behind (Token.isOpening_eq_false h rfl) fun q _ ↦ ?_
      split
      · exact q.counted_comparison _
      · exact Return.counted_fail _
    · exact Return.counted_fail _

theorem isOpening_of_operator? {t : Token} {op : Grammar.Operator} (h : g.operator? t = some op) :
    t.isOpening = false := by
  refine eq_false_of_ne_true fun hopening ↦ ?_
  have hkind : t.kind = .leftParen := of_decide_eq_true hopening
  cases g <;> simp only [Grammar.operator?, hkind] at h <;> cases h

theorem counted_descend (g : Grammar) (routine : Routine) (p : Parser) :
    (p.descend g routine).Counted := by
  fun_induction descend g routine p with
  | case1 p hopen ih => exact (counted_enter ih).andThen fun e q _ ↦ q.counted_closing _ e
  | case2 p hopen => exact p.counted_atom g
  | case3 p tight ihLink ihRest => exact ihLink.andThen ihRest
  | case4 p tight left hop => exact Return.counted_done left
  | case5 p left op hop ihLink ihRest =>
    exact counted_behind (isOpening_of_operator? hop) fun q hq ↦ (ihLink q hq).andThen (ihRest q hq)
  | case6 p tight left op hop htight => exact Return.counted_done left

theorem counted_descent (g : Grammar) (p : Parser) : (p.descent g).Counted := by
  refine (counted_descend g _ p).andThen fun e q _ ↦ ?_
  rw [finish]
  split
  · exact Return.counted_done e
  · exact Return.counted_fail _

end Parser

/-! ## Parentheses on the stack -/

/-- The stack has a level for a parenthesis only while the parenthesis is open. -/
theorem Grammar.Moves.length_enclosing_le {g : Grammar} {s s' : State} {tokens : List Token}
    (h : Moves g s tokens s') :
    s'.enclosing.length ≤ s.enclosing.length + (tokens.filter Token.isOpening).length := by
  induction h with
  | nil => exact Nat.le_add_right _ _
  | @cons s s' s'' t tokens hmove _ ih =>
    refine ih.trans ?_
    rw [List.filter_cons]
    cases hmove with
    | opening hkind =>
      have hopening : t.isOpening = true := decide_eq_true hkind
      simp only [hopening, if_true, List.length_cons]
      omega
    | number | field | comparator | literal | operator =>
      refine Nat.add_le_add_left (List.Sublist.length_le ?_) _
      split <;> simp
    | closing hkind =>
      rw [Token.isOpening_eq_false hkind rfl, if_neg Bool.false_ne_true]
      exact Nat.add_le_add_right (Nat.le_succ _) _

/-! ## Texts -/

namespace Parser

variable {p : Parser} {text : String} {skipped : Nat}

/-- A new parser has at most as many tokens to come as its text has characters. -/
theorem remaining_le_of_ofLexer (h : ofLexer ((Lexer.ofText text).after skipped) = .ok p) :
    p.consumed + p.remaining ≤ text.length := by
  generalize hl : (Lexer.ofText text).after skipped = l at h
  have hrest : l.rest.length ≤ text.length := by
    rw [← hl, (Lexer.isAt_after text skipped).1.rest, List.length_drop, String.length_toList]
    exact Nat.sub_le _ _
  rw [ofLexer] at h
  rcases hread : l.read with ⟨e | t, l'⟩
  · rw [hread] at h
    cases h
  · rw [hread] at h
    cases h
    rw [remaining]
    split
    · exact Nat.zero_le _
    · rename_i hend
      have hlt := Lexer.length_rest_lt hread (eq_false_of_ne_true hend)
      simp only
      omega

/-- What a call may cost, in a text of `n` characters. -/
structure Within (g : Grammar) (p : Parser) (n : Nat) : Prop where
  /-- The call does what recursive descent does. -/
  descent : (p.parse g).1.result = (p.descent g).result ∧ (p.parse g).2 = (p.descent g).parser
  /-- It consumes at most the tokens that are to come. -/
  advances : (p.parse g).2.consumed ≤ p.consumed + p.pending.length
  /-- With those consumed before, they are at most as many as the text has characters. -/
  extent : p.consumed + p.pending.length ≤ n
  /-- Of the tokens consumed, each parenthesis that opens has one call made for it. -/
  entered : (p.descent g).calls.openings =
    (p.pending.take ((p.parse g).2.consumed - p.consumed)).filter Token.isOpening
  /-- No more calls are inside each other than that. -/
  depth : (p.descent g).calls.depth ≤ (p.descent g).calls.openings.length
  /-- However many of the tokens have been consumed, the stack has at most one level for each
  parenthesis that opens among them. -/
  stack : ∀ before after, taken (p.asks g .initial) = before ++ after →
    ∃ s, Grammar.Moves g .initial before s ∧
      s.enclosing.length ≤ (before.filter Token.isOpening).length

theorem within_of_le {n : Nat} (hp : p.current.NamesPath) (hn : p.consumed + p.remaining ≤ n)
    (g : Grammar) : p.Within g n := by
  obtain ⟨hresult, hparser⟩ := p.answer_parse g hp
  obtain ⟨tokens, ⟨hcounter, rest, hpending, -⟩, hopenings⟩ := counted_descent g p
  have hconsumed : (p.parse g).2.consumed = p.consumed + tokens.length := by
    rw [hparser, hcounter]
  have hlength : p.pending.length = tokens.length + rest.length := by
    rw [hpending, List.length_append]
  refine ⟨⟨hresult, hparser⟩, ?_, ?_, ?_, Calls.depth_le_length_openings _, ?_⟩
  · rw [hconsumed, hlength]
    omega
  · exact (Nat.add_le_add_left p.length_pending_le _).trans hn
  · rw [hconsumed, Nat.add_sub_cancel_left, hpending, List.take_left, hopenings]
  · intro before after htaken
    obtain ⟨s, hmoves, -⟩ := p.exists_moves g .initial
    rw [htaken] at hmoves
    obtain ⟨s', hbefore, -⟩ := hmoves.of_append
    have hstack := hbefore.length_enclosing_le
    rw [Grammar.State.initial] at hstack
    exact ⟨s', hbefore, by simpa using hstack⟩

end Parser

/-- **Reading is bounded by the text**: a text of `n` characters yields at most `n + 1` items, and
every call of a parser costs at most what its tokens allow, however the parser has been used before
and however the call ends. -/
theorem reading_bounded (text : String) :
    (∃ items, (Lexer.ofText text).Pulls items ∧ items.length ≤ text.length + 1) ∧
      ∀ (skipped : Nat) (p : Parser),
        Parser.ofLexer ((Lexer.ofText text).after skipped) = .ok p →
          ∀ (used : List Grammar) (g : Grammar), (p.after used).Within g text.length := by
  refine ⟨⟨_, Lexer.pulls_tokens rfl, ?_⟩, fun skipped p hp used g ↦ ?_⟩
  · have hleading := (Lexer.ofText text).length_leading_le
    have hrest : (Lexer.ofText text).rest.length = text.length := String.length_toList
    rw [Lexer.length_tokens]
    omega
  · have hreaches := Parser.reaches_after p used
    refine Parser.within_of_le (hreaches.namesPath (Parser.namesPath_ofLexer hp)) ?_ g
    exact hreaches.consumed_add_remaining_le.2.trans (Parser.remaining_le_of_ofLexer hp)

/-- The first call stops at the field and leaves the parser inside the first parenthesis.  The
second one finds three more of them, two inside each other, and reads up to the end, where the last
one is still open. -/
theorem reading_bounded_unbalanced : ∃ p,
    Parser.ofLexer ((Lexer.ofText "1 (x ((2 + 3) * 4) - (5").after 1) = .ok p ∧
      (p.after [.query]).Within .arithmetic 23 ∧
      ((p.after [.query]).parse .arithmetic).2.consumed = 14 ∧
      ((p.after [.query]).descent .arithmetic).calls.openings.map (·.offset) = [5, 6, 21] ∧
      ((p.after [.query]).descent .arithmetic).calls.depth = 2 := by
  have hp : Parser.ofLexer ((Lexer.ofText "1 (x ((2 + 3) * 4) - (5").after 1) =
      .ok ⟨⟨"x ((2 + 3) * 4) - (5".toList, 3, false⟩, ⟨.leftParen, "(", 2⟩, 0⟩ := by
    decide +kernel
  have hwithin := (reading_bounded "1 (x ((2 + 3) * 4) - (5").2 1 _ hp [.query] .arithmetic
  exact ⟨_, hp, hwithin, by decide +kernel, by decide +kernel, by decide +kernel⟩

end RecordQuery
