import RecordQuery.Proofs.Viability

/-!
# A parser that is used again

A failing call may stop at any depth, and with the lexer already behind the text at fault.  The
parser can be called again all the same: nothing has been lost by then and nothing is read twice,
because the tokens consumed and the current token are together what the lexer has handed out.

The bookkeeping is a log of the parser as it was each time it asked its lexer for a token.
`Parser.Accounts` compares the log with the answers of the lexer.  Asking once keeps the accounts,
whatever the answer is, so a call keeps them, and so does a sequence of calls.

* `Lexer.answers`: what a lexer answers when it is asked again and again.
* `Parser.asks`, `Parser.log`: the log of a call and of a sequence of calls.
* `Parser.Accounts.consume`, `Parser.Accounts.run`, `Parser.Accounts.calls`: the accounts are kept.
* `Parser.exists_moves`: the tokens consumed are those of the sentence.
* `Parser.run_of_answer_error`: a lexical error ends a call and changes nothing but the lexer.
* `Parser.calls_of_isEnd`: at the end of the text every call fails and changes nothing.
* `Parser.reuse`: a parser over all its calls.
-/

set_option autoImplicit false

namespace RecordQuery

/-! ## Asking again and again -/

namespace Lexer

/-- The lexer after it was asked for `n` tokens, whatever it answered. -/
def after (l : Lexer) : Nat → Lexer
  | 0 => l
  | n + 1 => (l.after n).read.2

/-- The first `n` answers of the lexer. -/
def answers (l : Lexer) : Nat → List (Except SyntaxError Token)
  | 0 => []
  | n + 1 => l.answers n ++ [(l.after n).read.1]

end Lexer

/-! ## The log of a call -/

namespace Parser

variable {g : Grammar} {s next : Grammar.State} {p p' : Parser}

/-- What the lexer answers when the parser asks for a token. -/
def answer (p : Parser) : Except SyntaxError Token := p.lexer.read.1

/-- The token that is consumed when the parser asks for another one.  None is consumed when the
answer is an error. -/
def taken? (p : Parser) : Option Token :=
  match p.answer with
  | .ok _ => some p.current
  | .error _ => none

/-- The tokens consumed by a parser that asked as logged. -/
def taken (log : List Parser) : List Token := log.filterMap taken?

/-- The parser each time it asks its lexer, while it reads on from the part `s` of a sentence. -/
def asks (g : Grammar) (s : Grammar.State) (p : Parser) : List Parser :=
  match h : g.step s p.current with
  | .accept _ | .reject _ => []
  | .shift next =>
    match ha : p.consume with
    | (.error _, _) => [p]
    | (.ok (), p') =>
      have := remaining_consume_lt (Grammar.isEnd_of_step_eq_shift h) ha
      p :: asks g next p'
termination_by p.remaining

theorem asks_of_ne_shift (h : ∀ next, g.step s p.current ≠ .shift next) : p.asks g s = [] := by
  rw [asks]
  split
  · rfl
  · rfl
  · rename_i next hstep; exact absurd hstep (h next)

theorem asks_of_accept {e : Expr} (h : g.step s p.current = .accept e) : p.asks g s = [] := by
  refine asks_of_ne_shift fun next hshift ↦ ?_
  rw [h] at hshift
  cases hshift

theorem asks_of_reject {e : SyntaxError} (h : g.step s p.current = .reject e) :
    p.asks g s = [] := by
  refine asks_of_ne_shift fun next hshift ↦ ?_
  rw [h] at hshift
  cases hshift

theorem asks_of_error {e : SyntaxError} (h : g.step s p.current = .shift next)
    (ha : p.consume = (.error e, p')) : p.asks g s = [p] := by
  rw [asks]
  split
  · rename_i h'; rw [h] at h'; cases h'
  · rename_i h'; rw [h] at h'; cases h'
  · split
    · rfl
    · rename_i ha'; rw [ha] at ha'; cases ha'

theorem asks_of_ok (h : g.step s p.current = .shift next) (ha : p.consume = (.ok (), p')) :
    p.asks g s = p :: p'.asks g next := by
  rw [asks]
  split
  · rename_i h'; rw [h] at h'; cases h'
  · rename_i h'; rw [h] at h'; cases h'
  · rename_i h'
    rw [h] at h'
    cases h'
    split
    · rename_i ha'; rw [ha] at ha'; cases ha'
    · rename_i ha'; rw [ha] at ha'; cases ha'; rfl

/-! ## Asking once -/

theorem consume_of_answer_ok {t : Token} (h : p.answer = .ok t) :
    p.consume = (.ok (), ⟨p.lexer.read.2, t, p.consumed + 1⟩) := by
  have hread : p.lexer.read = (.ok t, p.lexer.read.2) := Prod.ext h rfl
  rw [consume, hread]

/-- An error in place of the next token leaves the current token and the counter as they are. -/
theorem consume_of_answer_error {e : SyntaxError} (h : p.answer = .error e) :
    p.consume = (.error e, { p with lexer := p.lexer.read.2 }) := by
  have hread : p.lexer.read = (.error e, p.lexer.read.2) := Prod.ext h rfl
  rw [consume, hread]

theorem answer_of_consume_ok (h : p.consume = (.ok (), p')) : p.answer = .ok p'.current := by
  rw [answer, read_of_consume_ok h]

theorem answer_of_consume_error {e : SyntaxError} (h : p.consume = (.error e, p')) :
    p.answer = .error e := by
  rw [answer, read_of_consume_error h]

theorem lexer_consume (p : Parser) : p.consume.2.lexer = p.lexer.read.2 := by
  cases hanswer : p.answer with
  | error e => rw [consume_of_answer_error hanswer]
  | ok t => rw [consume_of_answer_ok hanswer]

theorem consumed_of_consume_ok (h : p.consume = (.ok (), p')) : p'.consumed = p.consumed + 1 := by
  rw [consume_of_answer_ok (answer_of_consume_ok h)] at h
  exact (congrArg (·.2.consumed) h).symm

theorem taken_append (log log' : List Parser) : taken (log ++ log') = taken log ++ taken log' :=
  List.filterMap_append

theorem taken_cons_of_ok {t : Token} (h : p.answer = .ok t) (log : List Parser) :
    taken (p :: log) = p.current :: taken log := by
  rw [taken, List.filterMap_cons, taken?, h]
  rfl

theorem taken_cons_of_error {e : SyntaxError} (h : p.answer = .error e) (log : List Parser) :
    taken (p :: log) = taken log := by
  rw [taken, List.filterMap_cons, taken?, h]
  rfl

/-- The books of a parser that was built on the lexer `start` and has asked as logged since. -/
structure Accounts (start : Lexer) (log : List Parser) (p : Parser) : Prop where
  /-- The lexer was asked once to build the parser and then as logged. -/
  lexer : p.lexer = start.after (log.length + 1)
  /-- The answers are those of the lexer. -/
  answers : ∃ t, start.answers (log.length + 1) = .ok t :: log.map answer
  /-- The tokens handed out are those consumed and the current one. -/
  tokens : taken log ++ [p.current] =
    (start.answers (log.length + 1)).filterMap Except.toOption
  counter : p.consumed = (taken log).length
  /-- The end of the text is not consumed. -/
  isEnd : ∀ t ∈ taken log, t.isEnd = false

namespace Accounts

variable {start : Lexer} {log : List Parser}

/-- A new parser has consumed nothing. -/
theorem ofLexer (h : ofLexer start = .ok p) : Accounts start [] p := by
  rw [Parser.ofLexer] at h
  cases hread : start.read.1 with
  | error e => rw [hread] at h; cases h
  | ok t =>
    rw [hread] at h
    cases h
    have hanswers : start.answers 1 = [.ok t] := by rw [← hread]; rfl
    refine ⟨rfl, ⟨t, hanswers⟩, by rw [List.length_nil, hanswers]; rfl, rfl, ?_⟩
    intro t' ht'
    cases ht'

/-- Asking once more keeps the accounts, whatever the answer is. -/
theorem consume (h : Accounts start log p) (hend : p.current.isEnd = false) :
    Accounts start (log ++ [p]) p.consume.2 := by
  have hlength : (log ++ [p]).length + 1 = log.length + 2 := by
    rw [List.length_append]
    rfl
  have hlexer : p.consume.2.lexer = start.after (log.length + 2) := by
    rw [lexer_consume, Lexer.after, ← h.lexer]
  have hanswers : start.answers (log.length + 2) =
      start.answers (log.length + 1) ++ [p.answer] := by
    rw [Lexer.answers, ← h.lexer, answer]
  have hlog : ∃ t, start.answers (log.length + 2) = .ok t :: (log ++ [p]).map answer := by
    obtain ⟨t, ht⟩ := h.answers
    exact ⟨t, by rw [hanswers, ht, List.map_append]; rfl⟩
  have hbooks : taken (log ++ [p]) ++ [p.consume.2.current] =
        (start.answers (log.length + 2)).filterMap Except.toOption ∧
      p.consume.2.consumed = (taken (log ++ [p])).length ∧
        ∀ t ∈ taken (log ++ [p]), t.isEnd = false := by
    rw [taken_append, hanswers, List.filterMap_append, ← h.tokens]
    cases hanswer : p.answer with
    | error e =>
      -- the lexer has moved on, and nothing was handed out
      rw [taken_cons_of_error hanswer, consume_of_answer_error hanswer]
      have hnil : taken log ++ taken [] = taken log := List.append_nil _
      rw [hnil]
      exact ⟨(List.append_nil _).symm, h.counter, h.isEnd⟩
    | ok t =>
      rw [taken_cons_of_ok hanswer, consume_of_answer_ok hanswer]
      refine ⟨rfl, ?_, ?_⟩
      · rw [List.length_append, ← h.counter]
        rfl
      · intro t' ht'
        rcases List.mem_append.mp ht' with ht' | ht'
        · exact h.isEnd t' ht'
        · rw [List.mem_singleton.mp ht']; exact hend
  obtain ⟨htokens, hcounter, hisEnd⟩ := hbooks
  rw [← hlength] at hlexer hlog htokens
  exact ⟨hlexer, hlog, htokens, hcounter, hisEnd⟩

/-- A call keeps the accounts, from whatever part of a sentence it goes on. -/
theorem run (h : Accounts start log p) (g : Grammar) (s : Grammar.State) :
    Accounts start (log ++ p.asks g s) (p.run g s).2 := by
  fun_induction Parser.run g s p generalizing log with
  | case1 s p e hstep => rw [asks_of_accept hstep, List.append_nil]; exact h
  | case2 s p e hstep => rw [asks_of_reject hstep, List.append_nil]; exact h
  | case3 s p next hstep e p' hconsume =>
    have hasked := h.consume (Grammar.isEnd_of_step_eq_shift hstep)
    rw [hconsume] at hasked
    rw [asks_of_error hstep hconsume]
    exact hasked
  | case4 s p next hstep p' hconsume hlt ih =>
    have hasked := h.consume (Grammar.isEnd_of_step_eq_shift hstep)
    rw [hconsume] at hasked
    rw [asks_of_ok hstep hconsume, List.append_cons]
    exact ih hasked

end Accounts

/-! ## One call -/

theorem run_of_accept {e : Expr} (h : g.step s p.current = .accept e) : p.run g s = (.ok e, p) := by
  rw [run]
  split
  · rename_i h'; rw [h] at h'; cases h'; rfl
  · rename_i h'; rw [h] at h'; cases h'
  · rename_i h'; rw [h] at h'; cases h'

theorem run_of_reject {e : SyntaxError} (h : g.step s p.current = .reject e) :
    p.run g s = (.error e, p) := by
  rw [run]
  split
  · rename_i h'; rw [h] at h'; cases h'
  · rename_i h'; rw [h] at h'; cases h'; rfl
  · rename_i h'; rw [h] at h'; cases h'

theorem run_of_consume_error {e : SyntaxError} (h : g.step s p.current = .shift next)
    (ha : p.consume = (.error e, p')) : p.run g s = (.error e, p') := by
  rw [run]
  split
  · rename_i h'; rw [h] at h'; cases h'
  · rename_i h'; rw [h] at h'; cases h'
  · split
    · rename_i ha'; rw [ha] at ha'; cases ha'; rfl
    · rename_i ha'; rw [ha] at ha'; cases ha'

theorem run_of_consume_ok (h : g.step s p.current = .shift next)
    (ha : p.consume = (.ok (), p')) : p.run g s = p'.run g next := by
  rw [run]
  split
  · rename_i h'; rw [h] at h'; cases h'
  · rename_i h'; rw [h] at h'; cases h'
  · rename_i h'
    rw [h] at h'
    cases h'
    split
    · rename_i ha'; rw [ha] at ha'; cases ha'
    · rename_i ha'; rw [ha] at ha'; cases ha'; rfl

theorem parse_of_run_ok {e : Expr} (h : p.run g .initial = (.ok e, p')) :
    p.parse g = (⟨.ok e, [.tokensParsed p'.consumed]⟩, p') := by
  rw [parse, h]

theorem parse_of_run_error {e : SyntaxError} (h : p.run g .initial = (.error e, p')) :
    p.parse g = (.ofExcept (.error e), p') := by
  rw [parse, h]

theorem result_parse (g : Grammar) (p : Parser) :
    (p.parse g).1.result = (p.run g .initial).1 := by
  rcases hrun : p.run g .initial with ⟨e | e, p'⟩
  · rw [parse_of_run_error hrun]
    rfl
  · rw [parse_of_run_ok hrun]

theorem parse_snd (g : Grammar) (p : Parser) : (p.parse g).2 = (p.run g .initial).2 := by
  rcases hrun : p.run g .initial with ⟨e | e, p'⟩
  · rw [parse_of_run_error hrun]
  · rw [parse_of_run_ok hrun]

/-- The counter goes up by one with every token consumed. -/
theorem consumed_run (g : Grammar) (s : Grammar.State) (p : Parser) :
    (p.run g s).2.consumed = p.consumed + (taken (p.asks g s)).length := by
  fun_induction Parser.run g s p with
  | case1 s p e hstep => rw [asks_of_accept hstep]; rfl
  | case2 s p e hstep => rw [asks_of_reject hstep]; rfl
  | case3 s p next hstep e p' hconsume =>
    have hanswer := answer_of_consume_error hconsume
    rw [asks_of_error hstep hconsume, taken_cons_of_error hanswer]
    rw [consume_of_answer_error hanswer] at hconsume
    cases hconsume
    rfl
  | case4 s p next hstep p' hconsume hlt ih =>
    rw [asks_of_ok hstep hconsume, taken_cons_of_ok (answer_of_consume_ok hconsume),
      List.length_cons, ih, consumed_of_consume_ok hconsume]
    omega

/-- The tokens consumed are taken into the sentence, and a call that succeeds accepts it behind the
last of them. -/
theorem exists_moves (g : Grammar) (s : Grammar.State) (p : Parser) :
    ∃ s', Grammar.Moves g s (taken (p.asks g s)) s' ∧
      ∀ e, (p.run g s).1 = .ok e → g.step s' (p.run g s).2.current = .accept e := by
  fun_induction Parser.run g s p with
  | case1 s p e hstep =>
    rw [asks_of_accept hstep]
    exact ⟨s, .nil, fun _ he ↦ Except.ok.inj he ▸ hstep⟩
  | case2 s p e hstep =>
    rw [asks_of_reject hstep]
    exact ⟨s, .nil, fun _ he ↦ by cases he⟩
  | case3 s p next hstep e p' hconsume =>
    rw [asks_of_error hstep hconsume, taken_cons_of_error (answer_of_consume_error hconsume)]
    exact ⟨s, .nil, fun _ he ↦ by cases he⟩
  | case4 s p next hstep p' hconsume hlt ih =>
    obtain ⟨s', hmoves, haccept⟩ := ih
    rw [asks_of_ok hstep hconsume, taken_cons_of_ok (answer_of_consume_ok hconsume)]
    exact ⟨s', .cons (Grammar.move_of_step hstep) hmoves, haccept⟩

/-- A lexical error ends the call, with the current token and the counter as they were. -/
theorem run_of_answer_error {q : Parser} {e : SyntaxError} (hq : q ∈ p.asks g s)
    (h : q.answer = .error e) :
    (p.run g s).1 = .error e ∧ (p.run g s).2 = { q with lexer := q.lexer.read.2 } := by
  fun_induction Parser.run g s p with
  | case1 s p e hstep => rw [asks_of_accept hstep] at hq; cases hq
  | case2 s p e hstep => rw [asks_of_reject hstep] at hq; cases hq
  | case3 s p next hstep e' p' hconsume =>
    rw [asks_of_error hstep hconsume, List.mem_singleton] at hq
    subst hq
    rw [consume_of_answer_error h] at hconsume
    cases hconsume
    exact ⟨rfl, rfl⟩
  | case4 s p next hstep p' hconsume hlt ih =>
    rw [asks_of_ok hstep hconsume] at hq
    rcases List.mem_cons.mp hq with rfl | hq
    · rw [answer_of_consume_ok hconsume] at h
      cases h
    · exact ih hq

/-- Neither grammar has a sentence without tokens. -/
theorem exists_step_eq_reject {t : Token} (g : Grammar) (ht : t.isEnd = true) :
    ∃ cause, g.step .initial t = .reject ⟨cause, t.offset⟩ := by
  cases hstep : g.step .initial t with
  | shift next => rw [Grammar.isEnd_of_step_eq_shift hstep] at ht; cases ht
  | accept e =>
    obtain ⟨-, operand, l, hs, -⟩ := Grammar.step_eq_accept_iff.mp hstep
    cases hs
  | reject e => exact ⟨e.cause, by rw [← Grammar.position_of_reject hstep]⟩

/-- At the end of the text a call fails there and changes nothing. -/
theorem parse_of_isEnd (g : Grammar) (hend : p.current.isEnd = true) :
    ∃ cause, p.parse g = (.ofExcept (.error ⟨cause, p.current.offset⟩), p) := by
  obtain ⟨cause, hstep⟩ := exists_step_eq_reject g hend
  exact ⟨cause, parse_of_run_error (run_of_reject hstep)⟩

/-- What a call does to the parser, however it ends. -/
structure Reusable (g : Grammar) (p : Parser) : Prop where
  /-- The counter does not go down. -/
  counter : p.consumed ≤ (p.parse g).2.consumed
  /-- A call that succeeds ends at the end of the text, reports the counter, and has consumed the
  tokens of its tree. -/
  success : ∀ e, (p.parse g).1.result = .ok e →
    (p.parse g).2.current.isEnd = true ∧
      (p.parse g).1.events = [.tokensParsed (p.parse g).2.consumed] ∧
      (taken (p.asks g .initial)).map Token.symbol = e.symbols
  /-- A lexical error ends the call, with the current token and the counter as they were. -/
  lexicalError : ∀ q ∈ p.asks g .initial, ∀ e, q.answer = .error e →
    (p.parse g).1.result = .error e ∧
      (p.parse g).2.current = q.current ∧ (p.parse g).2.consumed = q.consumed

theorem reusable (g : Grammar) (p : Parser) : p.Reusable g := by
  refine ⟨?_, ?_, ?_⟩
  · rw [parse_snd, consumed_run]
    exact Nat.le_add_right _ _
  · intro e he
    rw [result_parse] at he
    obtain ⟨s, hmoves, haccept⟩ := p.exists_moves g .initial
    obtain ⟨hend, operand, l, rfl, rfl⟩ := Grammar.step_eq_accept_iff.mp (haccept e he)
    have hrun : p.run g .initial = (.ok (l.close operand), (p.run g .initial).2) := Prod.ext he rfl
    rw [parse_of_run_ok hrun]
    exact ⟨hend, rfl, (Grammar.admits_of_moves hmoves).2⟩
  · intro q hq e he
    obtain ⟨hresult, hafter⟩ := run_of_answer_error hq he
    rw [result_parse, parse_snd, hafter]
    exact ⟨hresult, rfl, rfl⟩

/-! ## Many calls -/

/-- The parser after a sequence of calls. -/
def after (p : Parser) : List Grammar → Parser
  | [] => p
  | g :: gs => (p.parse g).2.after gs

/-- How the calls end. -/
def outcomes (p : Parser) : List Grammar → List (Logged SyntaxError Expr)
  | [] => []
  | g :: gs => (p.parse g).1 :: (p.parse g).2.outcomes gs

/-- The parser each time it asks its lexer in a sequence of calls. -/
def log (p : Parser) : List Grammar → List Parser
  | [] => []
  | g :: gs => p.asks g .initial ++ (p.parse g).2.log gs

/-- A sequence of calls keeps the accounts, failing calls included. -/
theorem Accounts.calls {start : Lexer} {asked : List Parser} (h : Accounts start asked p)
    (gs : List Grammar) : Accounts start (asked ++ p.log gs) (p.after gs) := by
  induction gs generalizing asked p with
  | nil => rw [log, List.append_nil]; exact h
  | cons g gs ih =>
    rw [log, ← List.append_assoc, after, parse_snd]
    exact ih (h.run g .initial)

/-- At the end of the text every call fails there, and nothing changes any more. -/
theorem calls_of_isEnd (hend : p.current.isEnd = true) (gs : List Grammar) :
    p.after gs = p ∧
      ∀ r ∈ p.outcomes gs, ∃ cause, r = .ofExcept (.error ⟨cause, p.current.offset⟩) := by
  induction gs with
  | nil => exact ⟨rfl, fun _ hr ↦ by cases hr⟩
  | cons g gs ih =>
    obtain ⟨cause, hparse⟩ := parse_of_isEnd g hend
    rw [after, outcomes, hparse]
    refine ⟨ih.1, fun r hr ↦ ?_⟩
    rcases List.mem_cons.mp hr with rfl | hr
    · exact ⟨cause, rfl⟩
    · exact ih.2 r hr

/-- Behind a call that succeeds the text is at its end, so no other call succeeds. -/
theorem countP_outcomes_le (p : Parser) (gs : List Grammar) :
    (p.outcomes gs).countP (·.result.isOk) ≤ 1 := by
  induction gs generalizing p with
  | nil => exact Nat.zero_le 1
  | cons g gs ih =>
    rw [outcomes, List.countP_cons]
    cases hresult : (p.parse g).1.result with
    | error e => exact ih (p.parse g).2
    | ok e =>
      obtain ⟨hend, -, -⟩ := (reusable g p).success e hresult
      have hnone : ((p.parse g).2.outcomes gs).countP (·.result.isOk) = 0 := by
        refine List.countP_eq_zero.mpr fun r hr ↦ ?_
        obtain ⟨cause, rfl⟩ := (calls_of_isEnd hend gs).2 r hr
        exact Bool.false_ne_true
      rw [hnone]
      exact Nat.le_refl 1

/-- **A parser over all its calls**: whatever was taken from the lexer before, and however the calls
end, no token is lost or read twice.  A call does to the parser what `Reusable` says.  From the end
of the text on nothing changes, so that at most one of the calls succeeds. -/
theorem reuse {text : String} {skipped : Nat}
    (h : ofLexer ((Lexer.ofText text).after skipped) = .ok p) (gs : List Grammar) :
    Accounts ((Lexer.ofText text).after skipped) (p.log gs) (p.after gs) ∧
      (∀ g, (p.after gs).Reusable g) ∧
      ((p.after gs).current.isEnd = true → ∀ more, (p.after gs).after more = p.after gs ∧
        ∀ r ∈ (p.after gs).outcomes more, ∃ cause,
          r = .ofExcept (.error ⟨cause, (p.after gs).current.offset⟩)) ∧
      (p.outcomes gs).countP (·.result.isOk) ≤ 1 := by
  refine ⟨?_, fun g ↦ reusable g _, fun hend more ↦ calls_of_isEnd hend more,
    countP_outcomes_le p gs⟩
  exact (Accounts.ofLexer h).calls gs

/-- The number that is too large is skipped by the first call, which fails on it.  The third call
reads the product around it, and the fourth one finds the end. -/
theorem reuse_around_large_number : ∃ p,
    ofLexer ((Lexer.ofText "1 1 99999999999999999999 * 2").after 1) = .ok p ∧
      Accounts ((Lexer.ofText "1 1 99999999999999999999 * 2").after 1)
        (p.log [.arithmetic, .query, .arithmetic, .query])
        (p.after [.arithmetic, .query, .arithmetic, .query]) ∧
      (p.after [.arithmetic, .query, .arithmetic, .query]).consumed = 3 ∧
      (p.outcomes [.arithmetic, .query, .arithmetic, .query]).map (·.result.isOk) =
        [false, false, true, false] := by
  have h : ofLexer ((Lexer.ofText "1 1 99999999999999999999 * 2").after 1) =
      .ok ⟨⟨" 99999999999999999999 * 2".toList, 3, false⟩, ⟨.number 1, "1", 2⟩, 0⟩ := by
    decide +kernel
  obtain ⟨haccounts, -⟩ := reuse h [.arithmetic, .query, .arithmetic, .query]
  exact ⟨_, h, haccounts, by decide +kernel, by decide +kernel⟩

end Parser
end RecordQuery
