import RecordQuery.Proofs.FieldNames

/-!
# Recursive descent

The parser keeps the operators and parentheses that wait for something on a stack of its own.  A
recursive descent leaves that to the functions which are being called: one for operands, one for
operands joined by tight operators, one for these joined by loose operators, and the first of them
calls the last one again for what stands in parentheses.  `Parser.descend` is this descent, and
`Parser.answer_parse` says that it gives the same answer and leaves the parser in the same state.

What a function gives back is a `Parser.Return`.  It has a proof that its parser was reached by
asking for tokens, which is why the descent comes to an end: between two tokens each function calls
only those below it.  It also has the calls made for parentheses, as a tree, so that it can be said
how many there were and how deep they went.

* `Calls`: the calls made for parentheses.
* `Parser.Reaches`: one parser from another by asking for tokens.
* `Parser.Return`: what a function gives back.
* `Parser.descend`, `Parser.descent`: the descent.
* `Parser.Return.Ensures`, `Parser.stops_descend`: which operator may follow a chain.
* `Parser.Return.resume`, `Parser.run_descend`: the stack does what the functions do.
* `Parser.answer_parse`: so a call is the descent.
-/

set_option autoImplicit false

namespace RecordQuery

theorem Token.isEnd_of_kind {t : Token} {kind : Token.Kind} (h : t.kind = kind)
    (hkind : decide (kind = .finish) = false) : t.isEnd = false :=
  decide_eq_false (h ▸ of_decide_eq_false hkind)

theorem Grammar.isEnd_of_operator? {g : Grammar} {t : Token} {op : Operator}
    (h : g.operator? t = some op) : t.isEnd = false := by
  refine eq_false_of_ne_true fun hend ↦ ?_
  rw [operator?_eq_none (.inr (of_decide_eq_true hend))] at h
  cases h

/-! ## Calls for parentheses -/

/-- The calls made for parentheses, one after another. -/
inductive Calls where
  | none
  /-- a call for the parenthesis `opening`, the calls made inside it, and those made after it -/
  | nest (opening : Token) (inside next : Calls)
deriving DecidableEq, Repr

namespace Calls

/-- The calls, and others after them. -/
def append : Calls → Calls → Calls
  | none, others => others
  | nest opening inside next, others => nest opening inside (next.append others)

/-- The parentheses that calls were made for, in order. -/
def openings : Calls → List Token
  | none => []
  | nest opening inside next => opening :: (inside.openings ++ next.openings)

/-- The greatest number of calls inside each other. -/
def depth : Calls → Nat
  | none => 0
  | nest _ inside next => max (inside.depth + 1) next.depth

@[simp] theorem openings_append (calls others : Calls) :
    (calls.append others).openings = calls.openings ++ others.openings := by
  induction calls with
  | none => rfl
  | nest opening inside next _ ih => simp [append, openings, ih]

/-- Calls inside each other were made for different parentheses. -/
theorem depth_le_length_openings (calls : Calls) : calls.depth ≤ calls.openings.length := by
  induction calls with
  | none => exact Nat.le_refl 0
  | nest opening inside next ihInside ihNext =>
    simp only [depth, openings, List.length_cons, List.length_append]
    omega

end Calls

namespace Parser

/-! ## Asking for tokens -/

/-- `q` is `p` after it has been asked for tokens, never behind the end of the text. -/
inductive Reaches : Parser → Parser → Prop
  | refl {p : Parser} : Reaches p p
  | consume {p q : Parser} (hend : p.current.isEnd = false) (h : Reaches p.consume.2 q) :
      Reaches p q

namespace Reaches

variable {p q r : Parser}

theorem of_consume (hend : p.current.isEnd = false) {result : Except SyntaxError Unit}
    (h : p.consume = (result, q)) : p.Reaches q :=
  .consume hend (h ▸ .refl)

theorem trans (h : p.Reaches q) (h' : q.Reaches r) : p.Reaches r := by
  induction h with
  | refl => exact h'
  | consume hend _ ih => exact .consume hend (ih h')

theorem namesPath (h : p.Reaches q) (hp : p.current.NamesPath) : q.current.NamesPath := by
  induction h with
  | refl => exact hp
  | consume _ _ ih => exact ih (namesPath_consume hp)

/-- A token consumed is one less to come, and an error brings none back. -/
theorem consumed_add_remaining_le (h : p.Reaches q) :
    p.consumed ≤ q.consumed ∧ q.consumed + q.remaining ≤ p.consumed + p.remaining := by
  induction h with
  | refl => exact ⟨Nat.le_refl _, Nat.le_refl _⟩
  | @consume p q hend _ ih =>
    cases hanswer : p.answer with
    | error e =>
      -- the current token is still there, and the lexer may have passed characters
      rw [consume_of_answer_error hanswer] at ih
      have hrest := congrArg List.length p.lexer.read_rest
      simp only [List.length_append] at hrest
      have hread : p.lexer.read.2 = p.lexer.afterNext := rfl
      simp only [remaining, hend, hread] at ih ⊢
      exact ⟨ih.1, ih.2.trans (by simp only [Bool.false_eq_true, if_false]; omega)⟩
    | ok t =>
      have hconsume := consume_of_answer_ok hanswer
      have hlt := remaining_consume_lt hend hconsume
      rw [hconsume] at ih
      simp only at ih
      omega

theorem remaining_le (h : p.Reaches q) : q.remaining ≤ p.remaining := by
  have := h.consumed_add_remaining_le
  omega

end Reaches

/-- A call asks for tokens, and for none behind the end of the text. -/
theorem reaches_run (g : Grammar) (s : Grammar.State) (p : Parser) : p.Reaches (p.run g s).2 := by
  fun_induction run g s p with
  | case1 s p e hstep => exact .refl
  | case2 s p e hstep => exact .refl
  | case3 s p next hstep e p' hconsume =>
    exact .of_consume (Grammar.isEnd_of_step_eq_shift hstep) hconsume
  | case4 s p next hstep p' hconsume hlt ih =>
    exact (Reaches.of_consume (Grammar.isEnd_of_step_eq_shift hstep) hconsume).trans ih

theorem reaches_after (p : Parser) (gs : List Grammar) : p.Reaches (p.after gs) := by
  induction gs generalizing p with
  | nil => exact .refl
  | cons g gs ih =>
    rw [after, parse_snd]
    exact (reaches_run g .initial p).trans (ih _)

/-! ## What a function gives back -/

/-- How a function returns that was called at `p`. -/
structure Return (p : Parser) where
  /-- the tree it has read, or the error it has met -/
  result : Except SyntaxError Expr
  /-- the parser behind what it has read -/
  parser : Parser
  /-- the calls it has made for parentheses -/
  calls : Calls
  reaches : p.Reaches parser

variable {p : Parser}

namespace Return

/-- Returns the tree `e` at once. -/
def done (p : Parser) (e : Expr) : Return p := ⟨.ok e, p, .none, .refl⟩

/-- Returns the error `e` at once. -/
def fail (p : Parser) (e : SyntaxError) : Return p := ⟨.error e, p, .none, .refl⟩

/-- Refuses the current token, where something else is wanted. -/
def refuse (p : Parser) (wanted : Expectation) : Return p :=
  fail p ⟨.misplaced wanted p.current, p.current.offset⟩

/-- Goes on with the tree, where the function has returned. -/
def andThen (r : Return p) (f : Expr → (q : Parser) → p.Reaches q → Return q) : Return p :=
  match r with
  | ⟨.error e, q, calls, h⟩ => ⟨.error e, q, calls, h⟩
  | ⟨.ok x, q, calls, h⟩ =>
    ⟨(f x q h).result, (f x q h).parser, calls.append (f x q h).calls, h.trans (f x q h).reaches⟩

/-- The function was called for the parenthesis `opening`. -/
def within (r : Return p) (opening : Token) : Return p :=
  { r with calls := .nest opening r.calls .none }

end Return

/-- Consumes the current token and goes on behind it. -/
def behind (p : Parser) (hend : p.current.isEnd = false)
    (f : (q : Parser) → p.consume = (.ok (), q) → Return q) : Return p :=
  match h : p.consume with
  | (.error e, q) => ⟨.error e, q, .none, .of_consume hend h⟩
  | (.ok (), q) =>
    ⟨(f q h).result, (f q h).parser, (f q h).calls,
      (Reaches.of_consume hend h).trans (f q h).reaches⟩

/-- Consumes an opening parenthesis and makes the call for it. -/
def enter (p : Parser) (hopen : p.current.kind = .leftParen)
    (f : (q : Parser) → p.consume = (.ok (), q) → Return q) : Return p :=
  p.behind (Token.isEnd_of_kind hopen rfl) fun q hq ↦ (f q hq).within p.current

/-! ## The functions -/

/-- A parenthesis that was opened at `opening` is closed behind `e`. -/
def closing (p : Parser) (opening : Nat) (e : Expr) : Return p :=
  if h : p.current.kind = .rightParen then
    p.behind (Token.isEnd_of_kind h rfl) fun q _ ↦ .done q (.grouping e)
  else .refuse p (.closing opening)

/-- The literal that a field is compared with. -/
def literal (p : Parser) (field : FieldPath) (op : Comparator) : Return p :=
  match h : p.current.kind with
  | .string text =>
    p.behind (Token.isEnd_of_kind h rfl) fun q _ ↦ .done q (.comparison field op (.string text))
  | .number n =>
    if op = .like then .fail p ⟨.patternRequired, p.current.offset⟩
    else
      p.behind (Token.isEnd_of_kind h rfl) fun q _ ↦ .done q (.comparison field op (.integer n))
  | _ => .refuse p (.literal op)

/-- The comparator behind a field, and the literal. -/
def comparison (p : Parser) (field : FieldPath) : Return p :=
  match h : p.current.kind with
  | .comparator op => p.behind (Token.isEnd_of_kind h rfl) fun q _ ↦ q.literal field op
  | _ => .refuse p (.comparator field)

/-- An operand without parentheses.  The name of a field is looked at behind the field. -/
def atom (p : Parser) : Grammar → Return p
  | .arithmetic =>
    match h : p.current.kind with
    | .number n => p.behind (Token.isEnd_of_kind h rfl) fun q _ ↦ .done q (.number n)
    | _ => .refuse p .number
  | .query =>
    match h : p.current.kind with
    | .identifier name =>
      p.behind (Token.isEnd_of_kind h rfl) fun q _ ↦
        match FieldPath.ofName? name with
        | some field => q.comparison field
        | none => .fail q ⟨.invalidPath, p.current.offset⟩
    | _ => .refuse p .condition

/-- The functions that call each other. -/
inductive Routine where
  /-- an operand, possibly in parentheses -/
  | operand
  /-- operands joined by tight operators, or such chains joined by loose ones -/
  | chain (tight : Bool)
  /-- what is left of such a chain behind `left` -/
  | rest (tight : Bool) (left : Expr)
deriving DecidableEq, Repr

namespace Routine

/-- What the operators of a chain join. -/
def link : Bool → Routine
  | true => operand
  | false => chain true

/-- A function calls only those below it before it has consumed a token. -/
def rank : Routine → Nat
  | operand | rest .. => 0
  | chain true => 1
  | chain false => 2

theorem rank_le (routine : Routine) : routine.rank ≤ 2 := by
  fun_cases rank routine <;> decide

theorem rank_link_lt (tight : Bool) : (link tight).rank < (chain tight).rank := by
  cases tight <;> decide

theorem rank_rest_lt (tight : Bool) (left : Expr) :
    (rest tight left).rank < (chain tight).rank := by
  cases tight <;> exact Nat.succ_pos _

end Routine

/-- Recursive descent. -/
def descend (g : Grammar) (routine : Routine) (p : Parser) : Return p :=
  match routine with
  | .operand =>
    if hopen : p.current.kind = .leftParen then
      (p.enter hopen fun q _hq ↦ descend g (.chain false) q).andThen fun e q _ ↦
        q.closing p.current.offset e
    else p.atom g
  | .chain tight =>
    (descend g (.link tight) p).andThen fun left q _hq ↦ descend g (.rest tight left) q
  | .rest tight left =>
    match h : g.operator? p.current with
    | none => .done p left
    | some op =>
      if op.isTight = tight then
        p.behind (Grammar.isEnd_of_operator? h) fun q _hq ↦
          (descend g (.link tight) q).andThen fun right q' _hq' ↦
            descend g (.rest tight (op.join left right)) q'
      else .done p left
termination_by 3 * p.remaining + routine.rank
decreasing_by
  · have := remaining_consume_lt (Token.isEnd_of_kind hopen rfl) _hq
    have := (Routine.chain false).rank_le
    omega
  · have := Routine.rank_link_lt tight
    omega
  · have := _hq.remaining_le
    have := Routine.rank_rest_lt tight left
    omega
  · have := remaining_consume_lt (Grammar.isEnd_of_operator? h) _hq
    have := (Routine.link tight).rank_le
    omega
  · have := remaining_consume_lt (Grammar.isEnd_of_operator? h) _hq
    have := _hq'.remaining_le
    have := (Routine.rest tight (op.join left right)).rank_le
    omega

/-- The end of the text, behind the sentence `e`. -/
def finish (p : Parser) (e : Expr) : Return p :=
  if p.current.isEnd then .done p e else .fail p ⟨.trailing p.current, p.current.offset⟩

/-- A sentence is a chain of loose operators up to the end of the text. -/
def descent (g : Grammar) (p : Parser) : Return p :=
  (p.descend g (.chain false)).andThen fun e q _ ↦ q.finish e

/-! ## Operators behind a chain -/

variable {g : Grammar} {hend : p.current.isEnd = false}
  {f : (q : Parser) → p.consume = (.ok (), q) → Return q}

theorem behind_of_error {e : SyntaxError} {q : Parser} (h : p.consume = (.error e, q)) :
    p.behind hend f = ⟨.error e, q, .none, .of_consume hend h⟩ := by
  rw [behind]
  split
  · rename_i h'
    rw [h] at h'
    cases h'
    rfl
  · rename_i h'
    rw [h] at h'
    cases h'

theorem behind_of_ok {q : Parser} (h : p.consume = (.ok (), q)) :
    p.behind hend f = ⟨(f q h).result, (f q h).parser, (f q h).calls,
      (Reaches.of_consume hend h).trans (f q h).reaches⟩ := by
  rw [behind]
  split
  · rename_i h'
    rw [h] at h'
    cases h'
  · rename_i h'
    have hq := h.symm.trans h'
    cases hq
    rfl

/-- Where the function returns a tree, `post` holds of it and of the parser behind it. -/
def Return.Ensures (r : Return p) (post : Expr → Parser → Prop) : Prop :=
  ∀ x, r.result = .ok x → post x r.parser

namespace Return.Ensures

variable {post post' : Expr → Parser → Prop}

theorem done {e : Expr} (h : post e p) : (Return.done p e).Ensures post := by
  rintro _ ⟨⟩
  exact h

theorem andThen {r : Return p} {f : Expr → (q : Parser) → p.Reaches q → Return q}
    (h : r.Ensures post) (hf : ∀ x q hq, post x q → (f x q hq).Ensures post') :
    (r.andThen f).Ensures post' := by
  obtain ⟨e | x, q, calls, hq⟩ := r
  · rintro _ ⟨⟩
  · exact hf x q hq (h x rfl)

theorem behind (hf : ∀ q hq, (f q hq).Ensures post) : (p.behind hend f).Ensures post := by
  rcases h : p.consume with ⟨e | ⟨⟩, q⟩
  · rw [behind_of_error h]
    rintro _ ⟨⟩
  · rw [behind_of_ok h]
    exact hf q h

theorem enter {hopen : p.current.kind = .leftParen} (hf : ∀ q hq, (f q hq).Ensures post) :
    (p.enter hopen f).Ensures post :=
  .behind fun q hq ↦ hf q hq

end Return.Ensures

namespace Routine

/-- What may stand behind a function: behind a chain no operator that it would have taken. -/
def Stops (g : Grammar) : Routine → Token → Prop
  | operand, _ => True
  | chain tight, t | rest tight _, t =>
    ∀ op, g.operator? t = some op → tight = true ∧ op.isTight = false

/-- What may stand in front of a function: a chain goes on behind what its operators join. -/
def Starts (g : Grammar) : Routine → Token → Prop
  | rest tight _, t => (link tight).Stops g t
  | _, _ => True

theorem Stops.operator?_eq_none {g : Grammar} {t : Token} (h : (chain false).Stops g t) :
    g.operator? t = none :=
  Option.eq_none_iff_forall_ne_some.mpr fun op hop ↦ absurd (h op hop).1 Bool.false_ne_true

theorem starts_link (g : Grammar) (tight : Bool) (t : Token) : (link tight).Starts g t := by
  cases tight <;> trivial

end Routine

/-- A function returns where it has to. -/
theorem stops_descend (g : Grammar) (routine : Routine) (p : Parser)
    (h : routine.Starts g p.current) :
    (p.descend g routine).Ensures fun _ q ↦ routine.Stops g q.current := by
  fun_induction descend g routine p with
  | case1 p hopen ih => exact fun _ _ ↦ trivial
  | case2 p hopen => exact fun _ _ ↦ trivial
  | case3 p tight ihLink ihRest =>
    exact (ihLink (Routine.starts_link g tight _)).andThen fun left q hq hstops ↦
      ihRest left q hq hstops
  | case4 p tight left hop =>
    refine .done fun op hop' ↦ ?_
    rw [hop] at hop'
    cases hop'
  | case5 p left op hop ihLink ihRest =>
    refine .behind fun q hq ↦ (ihLink q hq (Routine.starts_link g _ _)).andThen ?_
    exact fun right q' hq' hstops ↦ ihRest q hq right q' hq' hstops
  | case6 p tight left op hop htight =>
    -- in a loose chain the operator would be tight, and `link` does not stop in front of such a one
    refine .done fun op' hop' ↦ ?_
    rw [hop, Option.some.injEq] at hop'
    subst hop'
    cases tight with
    | true => exact ⟨rfl, eq_false_of_ne_true htight⟩
    | false => exact absurd (h op hop).2 htight

/-! ## The stack does what the functions do -/

/-- The parser that keeps a stack, where the function has returned: it goes on in the state `next`
that it is in behind the tree. -/
def Return.resume (g : Grammar) (r : Return p) (next : Expr → Grammar.State) :
    Except SyntaxError Expr × Parser :=
  match r.result with
  | .error e => (.error e, r.parser)
  | .ok x => r.parser.run g (next x)

variable {s s' : Grammar.State} {next next' : Expr → Grammar.State}

theorem resume_andThen {post : Expr → Parser → Prop} {r : Return p}
    {f : Expr → (q : Parser) → p.Reaches q → Return q} (hpost : r.Ensures post)
    (h : ∀ x q hq, post x q → q.run g (next x) = (f x q hq).resume g next') :
    r.resume g next = (r.andThen f).resume g next' := by
  obtain ⟨e | x, q, calls, hq⟩ := r
  · rfl
  · exact h x q hq (hpost x rfl)

/-- A token is taken in on the stack and consumed by the function. -/
theorem run_behind (hmove : Grammar.Move g s p.current s')
    (h : ∀ q hq, q.run g s' = (f q hq).resume g next) :
    p.run g s = (p.behind hend f).resume g next := by
  rcases hconsume : p.consume with ⟨e | ⟨⟩, q⟩
  · rw [run_of_consume_error (Grammar.step_of_move hmove) hconsume, behind_of_error hconsume]
    rfl
  · rw [run_of_consume_ok (Grammar.step_of_move hmove) hconsume, behind_of_ok hconsume]
    exact h q hconsume

theorem run_enter {hopen : p.current.kind = .leftParen} (hmove : Grammar.Move g s p.current s')
    (h : ∀ q hq, q.run g s' = (f q hq).resume g next) :
    p.run g s = (p.enter hopen f).resume g next :=
  run_behind hmove fun q hq ↦ h q hq

/-- A token is refused in both. -/
theorem run_fail {e : SyntaxError} (h : g.step s p.current = .reject e) :
    p.run g s = (Return.fail p e).resume g next :=
  run_of_reject h

variable {l : Grammar.Level} {enclosing : List (Nat × Grammar.Level)}

theorem run_closing {opening : Nat} {e : Expr} (hop : g.operator? p.current = none) :
    p.run g ⟨.operator e, .empty, (opening, l) :: enclosing⟩ =
      (p.closing opening e).resume g fun x ↦ ⟨.operator x, l, enclosing⟩ := by
  rw [closing]
  split
  · rename_i h
    exact run_behind (.closing h) fun _ _ ↦ rfl
  · rename_i h
    refine run_fail ?_
    simp only [Grammar.step, hop, Grammar.stepClosing, if_neg h, Grammar.refuse]

theorem run_literal (field : FieldPath) (op : Comparator) :
    p.run g ⟨.literal field op, l, enclosing⟩ =
      (p.literal field op).resume g fun x ↦ ⟨.operator x, l, enclosing⟩ := by
  rw [literal]
  split
  · rename_i text h
    have hkind : p.current.kind = (Literal.string text).kind := h
    exact run_behind (.literal hkind fun _ ↦ ⟨text, rfl⟩) fun _ _ ↦ rfl
  · rename_i n h
    have hkind : p.current.kind = (Literal.integer n).kind := h
    split
    · rename_i hlike
      refine run_fail ?_
      simp only [Grammar.step, Grammar.stepLiteral, h, if_pos hlike]
    · rename_i hlike
      exact run_behind (.literal hkind fun h ↦ absurd h hlike) fun _ _ ↦ rfl
  · refine run_fail ?_
    simp only [Grammar.step, Grammar.stepLiteral]
    rfl

theorem run_comparison (field : FieldPath) :
    p.run g ⟨.comparator field, l, enclosing⟩ =
      (p.comparison field).resume g fun x ↦ ⟨.operator x, l, enclosing⟩ := by
  rw [comparison]
  split
  · rename_i op h
    exact run_behind (.comparator h) fun q _ ↦ q.run_literal field op
  · refine run_fail ?_
    simp only [Grammar.step, Grammar.stepComparator]
    rfl

theorem run_atom (hp : p.current.NamesPath) (hopen : p.current.kind ≠ .leftParen) :
    p.run g ⟨.operand, l, enclosing⟩ =
      (p.atom g).resume g fun x ↦ ⟨.operator x, l, enclosing⟩ := by
  cases g with
  | arithmetic =>
    rw [atom]
    split
    · rename_i n h
      exact run_behind (.number rfl h) fun _ _ ↦ rfl
    · refine run_fail ?_
      simp only [Grammar.step, Grammar.stepOperand]
      rfl
  | query =>
    rw [atom]
    split
    · rename_i name h
      obtain ⟨path, hpath⟩ := hp name h
      refine run_behind (.field rfl h hpath) fun q _ ↦ ?_
      rw [hpath]
      exact q.run_comparison path
    · refine run_fail ?_
      simp only [Grammar.step, Grammar.stepOperand]
      rfl

theorem run_finish {e : Expr} (hop : g.operator? p.current = none) :
    p.run g ⟨.operator e, .empty, []⟩ = ((p.finish e).result, (p.finish e).parser) := by
  rw [finish]
  split
  · rename_i hend
    refine run_of_accept ?_
    simp only [Grammar.step, hop, Grammar.stepClosing, if_pos hend]
    rfl
  · rename_i hend
    refine run_of_reject ?_
    simp only [Grammar.step, hop, Grammar.stepClosing, if_neg hend]

end Parser

/-! ### Trees that are put together early

A function puts an operation together as soon as it has the right operand; on the stack it waits for
the next token.  Once that is a token behind which the function returns, there is no difference. -/

namespace Grammar

variable {g : Grammar} {l l' : Level} {left right e e' : Expr} {enclosing : List (Nat × Level)}
  {t : Token}

/-- Where operands close alike, the same is made of the next token. -/
theorem step_congr (hclose : l'.close e' = l.close e)
    (hpush : ∀ op, g.operator? t = some op → l'.push e' op = l.push e op) :
    g.step ⟨.operator e', l', enclosing⟩ t = g.step ⟨.operator e, l, enclosing⟩ t := by
  cases hop : g.operator? t with
  | none => simp only [step, hop, stepClosing, hclose]
  | some op => simp only [step, hop, hpush op hop]

theorem push_congr_of_loose {op : Operator} (hclose : l'.close e' = l.close e)
    (hop : op.isTight = false) : l'.push e' op = l.push e op := by
  have hnot : ¬ op.isTight = true := by rw [hop]; exact Bool.false_ne_true
  rw [Level.push, Level.push, if_neg hnot, if_neg hnot, hclose]

theorem push_congr_of_tight {op : Operator} (htight : l'.closeTight e' = l.closeTight e)
    (hloose : l'.loose = l.loose) (hop : op.isTight = true) : l'.push e' op = l.push e op := by
  rw [Level.push, Level.push, if_pos hop, if_pos hop, htight, hloose]

end Grammar

namespace Parser
namespace Routine

variable {g : Grammar} {l : Grammar.Level} {left right : Expr} {op : Grammar.Operator}
  {tight : Bool}

/-- Which operators may wait on the stack when a function is called: those that are looser than
what the function takes. -/
def Suits : Routine → Grammar.Level → Prop
  | operand, _ => True
  | chain tight, l | rest tight _, l => if tight then l.tight = none else l = .empty

/-- Where the stack is when the function is called. -/
def state (l : Grammar.Level) (enclosing : List (Nat × Grammar.Level)) : Routine → Grammar.State
  | operand | chain _ => ⟨.operand, l, enclosing⟩
  | rest _ left => ⟨.operator left, l, enclosing⟩

theorem state_link (tight : Bool) (l : Grammar.Level) (enclosing : List (Nat × Grammar.Level)) :
    (link tight).state l enclosing = ⟨.operand, l, enclosing⟩ := by
  cases tight <;> rfl

theorem Suits.link (h : (chain tight).Suits l) : (link tight).Suits l := by
  cases tight with
  | true => trivial
  | false =>
    have hempty : l = .empty := h
    exact congrArg Grammar.Level.tight hempty

theorem suits_push (l : Grammar.Level) (left : Expr) (op : Grammar.Operator) :
    (Routine.link op.isTight).Suits (l.push left op) := by
  cases hop : op.isTight with
  | true => trivial
  | false =>
    rw [Grammar.Level.push, hop]
    exact rfl

/-- Behind the right operand it makes no difference whether the operation has been put together. -/
theorem step_push (h : (rest op.isTight left).Suits l) {t : Token}
    (hstops : (link op.isTight).Stops g t) (enclosing : List (Nat × Grammar.Level)) :
    g.step ⟨.operator right, l.push left op, enclosing⟩ t =
      g.step ⟨.operator (op.join left right), l, enclosing⟩ t := by
  cases hop : op.isTight with
  | true =>
    rw [hop] at h
    have htight : l.tight = none := h
    have hpush : l.push left op = ⟨l.loose, some ⟨left, op⟩⟩ := by
      rw [Grammar.Level.push, if_pos hop, Grammar.Level.closeTight_of_eq_none htight]
    have hcloseTight : (l.push left op).closeTight right = l.closeTight (op.join left right) := by
      rw [hpush, Grammar.Level.closeTight_of_eq_none htight]
      rfl
    have hloose : (l.push left op).loose = l.loose := by rw [hpush]
    have hclose := Grammar.Level.close_congr hcloseTight hloose
    refine Grammar.step_congr hclose fun op' _ ↦ ?_
    cases hop' : op'.isTight with
    | true => exact Grammar.push_congr_of_tight hcloseTight hloose hop'
    | false => exact Grammar.push_congr_of_loose hclose hop'
  | false =>
    rw [hop] at h hstops
    obtain rfl : l = .empty := h
    have hclose : (Grammar.Level.empty.push left op).close right =
        Grammar.Level.empty.close (op.join left right) := by
      rw [Grammar.Level.push, hop]
      rfl
    exact Grammar.step_congr hclose fun op' hop' ↦
      Grammar.push_congr_of_loose hclose (hstops op' hop').2

end Routine

variable {g : Grammar} {p : Parser}

/-- Only what is made of the current token matters. -/
theorem run_congr {s s' : Grammar.State} (h : g.step s p.current = g.step s' p.current) :
    p.run g s = p.run g s' := by
  cases hstep : g.step s' p.current with
  | accept e => rw [run_of_accept hstep, run_of_accept (h.trans hstep)]
  | reject e => rw [run_of_reject hstep, run_of_reject (h.trans hstep)]
  | shift next =>
    rcases hconsume : p.consume with ⟨e | ⟨⟩, q⟩
    · rw [run_of_consume_error hstep hconsume, run_of_consume_error (h.trans hstep) hconsume]
    · rw [run_of_consume_ok hstep hconsume, run_of_consume_ok (h.trans hstep) hconsume]

/-- The parser does with its stack what the function does, and goes on behind its tree. -/
theorem run_descend (g : Grammar) (routine : Routine) (p : Parser) (hp : p.current.NamesPath)
    (hstarts : routine.Starts g p.current) (l : Grammar.Level)
    (enclosing : List (Nat × Grammar.Level)) (hl : routine.Suits l) :
    p.run g (routine.state l enclosing) =
      (p.descend g routine).resume g fun x ↦ ⟨.operator x, l, enclosing⟩ := by
  -- what waits below is arbitrary, since a call in parentheses starts on a level of its own
  fun_induction descend g routine p generalizing l enclosing with
  | case1 p hopen ih =>
    have hcall : p.run g ⟨.operand, l, enclosing⟩ =
        (p.enter hopen fun q _ ↦ descend g (.chain false) q).resume g
          fun x ↦ ⟨.operator x, .empty, (p.current.offset, l) :: enclosing⟩ :=
      run_enter (.opening hopen) fun q hq ↦ by
        have hnames := (Reaches.of_consume (Token.isEnd_of_kind hopen rfl) hq).namesPath hp
        exact ih q hq hnames trivial _ _ rfl
    exact hcall.trans (resume_andThen (.enter fun q _ ↦ stops_descend g (.chain false) q trivial)
      fun x q hq hstops ↦ run_closing hstops.operator?_eq_none)
  | case2 p hopen => exact run_atom hp hopen
  | case3 p tight ihLink ihRest =>
    have hlink := ihLink hp (Routine.starts_link g tight _) l enclosing hl.link
    rw [Routine.state_link] at hlink
    refine hlink.trans (resume_andThen
      (stops_descend g _ p (Routine.starts_link g tight _)) fun left q hq hstops ↦ ?_)
    exact ihRest left q hq (hq.namesPath hp) hstops l enclosing hl
  | case4 p tight left hop => rfl
  | case5 p left op hop ihLink ihRest =>
    refine run_behind (.operator hop) fun q hq ↦ ?_
    have hnames := (Reaches.of_consume (Grammar.isEnd_of_operator? hop) hq).namesPath hp
    have hlink := ihLink q hq hnames (Routine.starts_link g _ _) _ enclosing
      (Routine.suits_push l left op)
    rw [Routine.state_link] at hlink
    refine hlink.trans (resume_andThen
      (stops_descend g _ q (Routine.starts_link g _ _)) fun right q' hq' hstops ↦ ?_)
    -- the operation waits on the stack, and the loop goes on with it as its left operand
    rw [run_congr (Routine.step_push hl hstops enclosing)]
    exact ihRest q hq right q' hq' (hq'.namesPath hnames) hstops l enclosing hl
  | case6 p tight left op hop htight => rfl

/-- **The stack and the functions**: a call does what recursive descent does. -/
theorem answer_parse (g : Grammar) (hp : p.current.NamesPath) :
    (p.parse g).1.result = (p.descent g).result ∧ (p.parse g).2 = (p.descent g).parser := by
  rw [result_parse, parse_snd, descent]
  have hrun := run_descend g (.chain false) p hp trivial .empty [] rfl
  have hstops := stops_descend g (.chain false) p trivial
  have hinitial : (Routine.chain false).state .empty [] = .initial := rfl
  rw [hinitial] at hrun
  rcases hreturn : p.descend g (.chain false) with ⟨e | x, q, calls, hq⟩
  · rw [hreturn] at hrun
    rw [hrun]
    exact ⟨rfl, rfl⟩
  · rw [hreturn] at hrun hstops
    have hrun : p.run g .initial = q.run g ⟨.operator x, .empty, []⟩ := hrun
    rw [hrun, run_finish (hstops x rfl).operator?_eq_none]
    exact ⟨rfl, rfl⟩

end Parser
end RecordQuery
