import RecordQuery.Proofs.Preparation
import RecordQuery.Proofs.Recognition
import RecordQuery.Proofs.Segmentation
import RecordQuery.Proofs.Selection
import RecordQuery.Proofs.Substitution
import RecordQuery.Task

/-!
# Which stage fails

A text goes through several stages, and each has failures of its own.  The stages behind the grammar
refuse trees that no text can bring about, so that the grammar alone decides which texts are valid:
whatever is to be done with a text, an invalid one fails with the same error, before the records are
looked at.

Two failures remain.  A valid expression may divide by zero or leave the 64 bits, and then the error
stands at an operator of the text.  And a valid query is searched for as regular expressions once
the records have been read, and the engine may refuse one of these.

* `Expr.value_cases`: a tree of arithmetic has a value, or one of its operators fails.
* `Lexer.getElem?_of_operator`: the operators of a text are the characters at their offsets.
* `evaluateText_cases`: a valid expression has a value, or an operator of the text fails.
* `exists_prepareText`: a valid query can be prepared.
* `Task.filter_cases`: a valid query fails for the records or for one of its patterns.
* `run_settled_by_parse`: what becomes of a text, by its grammar.
-/

set_option autoImplicit false

namespace RecordQuery

/-! ## Failing operators -/

namespace EvaluationError

/-- The error stands at one of the operators among the symbols, and a division by zero at a
division. -/
def IsAt (symbols : List Symbol) : EvaluationError → Prop
  | divisionByZero position => (Grammar.Operator.arithmetic .divide position).symbol ∈ symbols
  | overflow position => ∃ op, (Grammar.Operator.arithmetic op position).symbol ∈ symbols
  | notArithmetic _ => False

/-- The error stands at an operator of the text, and a division by zero at a `/`. -/
def StandsIn (text : String) : EvaluationError → Prop
  | divisionByZero position => text.toList[position]? = some '/'
  | overflow position => ∃ c ∈ ['+', '-', '*', '/'], text.toList[position]? = some c
  | notArithmetic _ => False

theorem IsAt.mono {err : EvaluationError} {symbols symbols' : List Symbol}
    (h : err.IsAt symbols) (hsub : symbols ⊆ symbols') : err.IsAt symbols' := by
  cases err with
  | divisionByZero position => exact hsub h
  | overflow position =>
    obtain ⟨op, hop⟩ := h
    exact ⟨op, hsub hop⟩
  | notArithmetic node => exact h

end EvaluationError

theorem ArithmeticOp.apply_cases (op : ArithmeticOp) (left right : Integer) (position : Nat) :
    (∃ n, op.apply left right position = .ok n) ∨
      ∃ err, op.apply left right position = .error err ∧
        err.IsAt [(Grammar.Operator.arithmetic op position).symbol] := by
  by_cases hzero : op = .divide ∧ right = 0
  · refine .inr ⟨_, apply_of_divide_zero position hzero, ?_⟩
    rw [hzero.1]
    exact List.mem_cons_self
  · by_cases hrange : Integer.InRange (op.exact left.toInt right.toInt)
    · obtain ⟨v, hv, -⟩ := apply_of_inRange position hzero hrange
      exact .inl ⟨v, hv⟩
    · exact .inr ⟨_, apply_of_not_inRange position hzero hrange, op, List.mem_cons_self⟩

namespace Expr

/-- A tree of arithmetic has a value, or one of its operators fails.  The left operand is worked out
first, so the right one counts only when the left one has a value. -/
theorem value_cases {e : Expr} (h : Grammar.arithmetic.Admits e) :
    (∃ n, e.value = .ok n) ∨ ∃ err, e.value = .error err ∧ err.IsAt e.symbols := by
  induction e with
  | number n => exact .inl ⟨n, rfl⟩
  | grouping inner ih =>
    refine (ih h).imp id ?_
    rintro ⟨err, herr, hat⟩
    refine ⟨err, herr, hat.mono ?_⟩
    intro symbol hsymbol
    exact List.mem_cons_of_mem _ (List.mem_append_left _ hsymbol)
  | arithmetic op left right position ihl ihr =>
    obtain ⟨-, hleft, hright, -⟩ := h
    have hsubLeft : left.symbols ⊆ (arithmetic op left right position).symbols :=
      List.subset_append_left _ _
    have hsubRight : right.symbols ⊆ (arithmetic op left right position).symbols :=
      fun _ hsymbol ↦ List.mem_append_right _ (List.mem_cons_of_mem _ hsymbol)
    rcases ihl hleft with ⟨l, hl⟩ | ⟨err, hl, hat⟩
    · rcases ihr hright with ⟨r, hr⟩ | ⟨err, hr, hat⟩
      · rw [value_arithmetic hl hr]
        refine (op.apply_cases l r position).imp id ?_
        rintro ⟨err, herr, hat⟩
        refine ⟨err, herr, hat.mono ?_⟩
        exact List.cons_subset.mpr
          ⟨List.mem_append_right _ List.mem_cons_self, List.nil_subset _⟩
      · exact .inr ⟨err, value_of_right_error hl hr, hat.mono hsubRight⟩
    · exact .inr ⟨err, value_of_left_error hl, hat.mono hsubLeft⟩
  | comparison | logical => exact absurd h.1 (by decide)
  | string | field => exact h.elim

end Expr

/-! ## Operators of a text -/

/-- An operator is written as its symbol. -/
theorem Lexeme.Spells.eq_symbol {cs : List Char} {op : ArithmeticOp} {barred : Char → Prop}
    (h : Lexeme.Spells cs (.operator op) barred) : cs = op.symbol.toList := by
  generalize hkind : Token.Kind.operator op = kind at h
  cases h with
  | operator op' => cases hkind; rfl
  | word =>
    rw [wordKind] at hkind
    split_ifs at hkind
  | leftParen | rightParen | comparator | number | string => cases hkind

/-- At the offset of a token stands its lexeme. -/
theorem Lexer.drop_offset {text : String} {tokens : List Token} {t : Token}
    (h : (ofText text).Yields tokens) (ht : t ∈ tokens) :
    ∃ barred rest, Lexeme.Spells t.lexeme.toList t.kind barred ∧
      text.toList.drop t.offset = t.lexeme.toList ++ rest := by
  obtain ⟨segments, hsegments, rfl⟩ := yields_iff.mp h
  obtain ⟨before, after, hsplit⟩ := List.append_of_mem ht
  obtain ⟨pre, s, post, rfl, -, -, rfl⟩ := Segment.exists_of_tokens_eq hsplit
  obtain ⟨rest, htext, hrest, -⟩ := hsegments.exchange
  cases hrest with
  | @cons _ barred rest _ hblanks hspells hfollow hpost =>
    refine ⟨barred, rest, ?_, ?_⟩
    · rw [Segment.token, String.toList_ofList]
      exact hspells
    · rw [htext, Segment.token, Segment.chars, String.toList_ofList, Nat.zero_add]
      simp [List.drop_append]

/-- An operator is the character at its offset. -/
theorem Lexer.getElem?_of_operator {text : String} {tokens : List Token} {op : ArithmeticOp}
    {position : Nat} (h : (ofText text).Yields tokens)
    (hop : (Grammar.Operator.arithmetic op position).symbol ∈ tokens.map Token.symbol) :
    text.toList[position]? = op.symbol.toList.head? := by
  obtain ⟨t, ht, hsymbol⟩ := List.mem_map.mp hop
  have hkind : t.kind = .operator op := by rw [← t.symbol_kind, hsymbol]; rfl
  have hoffset : t.offset = position := by
    rw [Token.symbol, hkind, Grammar.Operator.symbol] at hsymbol
    exact Option.some.inj (congrArg Symbol.offset? hsymbol)
  obtain ⟨barred, rest, hspells, hdrop⟩ := drop_offset h ht
  rw [hkind] at hspells
  rw [hspells.eq_symbol, hoffset] at hdrop
  rw [← List.head?_drop, hdrop]
  cases op <;> rfl

/-- An error at an operator of a tree stands at an operator of its text. -/
theorem EvaluationError.IsAt.standsIn {text : String} {tokens : List Token}
    {err : EvaluationError} (htokens : (Lexer.ofText text).Yields tokens)
    (h : err.IsAt (tokens.map Token.symbol)) : err.StandsIn text := by
  cases err with
  | divisionByZero position => exact Lexer.getElem?_of_operator htokens h
  | overflow position =>
    obtain ⟨op, hop⟩ := h
    rw [StandsIn, Lexer.getElem?_of_operator htokens hop]
    cases op with
    | add => exact ⟨'+', by decide, rfl⟩
    | subtract => exact ⟨'-', by decide, rfl⟩
    | multiply => exact ⟨'*', by decide, rfl⟩
    | divide => exact ⟨'/', by decide, rfl⟩
  | notArithmetic node => exact h

/-! ## Texts -/

theorem evaluateText_of_error {text : String} {e : SyntaxError}
    (h : (Grammar.arithmetic.parse text).result = .error e) :
    (evaluateText text).result = .error (.syntaxError e) :=
  Logged.result_mapError_bind_of_error Failure.syntaxError h

theorem evaluateText_of_ok {text : String} {e : Expr}
    (h : (Grammar.arithmetic.parse text).result = .ok e) :
    (evaluateText text).result = e.value.mapError .evaluation := by
  have hparse : ((Grammar.arithmetic.parse text).mapError Failure.syntaxError).result = .ok e :=
    Logged.result_mapError_eq_ok_iff.mpr h
  rw [evaluateText, Logged.result_bind_of_ok hparse, Logged.mapError,
    Expr.result_evaluate]

/-- A valid expression has a value, or an operator of the text fails. -/
theorem evaluateText_cases {text : String} {e : Expr}
    (h : (Grammar.arithmetic.parse text).result = .ok e) :
    (∃ n, (evaluateText text).result = .ok n) ∨
      ∃ err, (evaluateText text).result = .error (.evaluation err) ∧ err.StandsIn text := by
  obtain ⟨tokens, htokens, hsymbols, hadmits⟩ := Grammar.parse_eq_ok_iff.mp h
  rw [evaluateText_of_ok h]
  rcases Expr.value_cases hadmits with ⟨n, hn⟩ | ⟨err, herr, hat⟩
  · exact .inl ⟨n, by rw [hn]; rfl⟩
  · rw [← hsymbols] at hat
    exact .inr ⟨err, by rw [herr]; rfl, hat.standsIn htokens⟩

theorem prepareText_of_error {text : String} {e : SyntaxError}
    (h : (Grammar.query.parse text).result = .error e) :
    (prepareText text).result = .error (.syntaxError e) :=
  Logged.result_mapError_bind_of_error Failure.syntaxError h

/-- A valid query can be prepared. -/
theorem exists_prepareText {text : String} {e : Expr}
    (h : (Grammar.query.parse text).result = .ok e) :
    ∃ q, e.prepare.result = .ok q ∧ prepareText text = ⟨.ok q, (prepareText text).events⟩ := by
  obtain ⟨-, -, -, hadmits⟩ := Grammar.parse_eq_ok_iff.mp h
  obtain ⟨p, hbind⟩ := Grammar.bind_of_admits hadmits 0
  obtain ⟨q, hprepare, -⟩ := Expr.prepare_of_bind hbind
  exact ⟨q, hprepare, Logged.ext (prepareText_eq_ok_iff.mpr ⟨e, h, hprepare⟩) rfl⟩

/-! ## Tasks -/

/-- The failure is about the text, and not about the records to filter. -/
def Failure.IsAboutText : Failure → Prop
  | syntaxError _ | evaluation _ | preparation _ | selection _ => True
  | notJson _ | noInput | notRecords _ => False

/-- Records that cannot be read say nothing about the text. -/
theorem not_isAboutText_of_readRecords {reader : Json.Reader} {input : String} {f : Failure}
    (h : readRecords reader input = .error f) : ¬ f.IsAboutText := by
  rw [readRecords] at h
  split at h
  · cases h
    exact id
  · rename_i v _
    cases v <;> cases h <;> exact id

namespace Task

variable {libs : Libraries} {text : String}

theorem check_of_error {g : Grammar} {e : SyntaxError} (h : (g.parse text).result = .error e) :
    ((check g).run libs text).result = .error (.syntaxError e) :=
  Logged.result_mapError_bind_of_error Failure.syntaxError h

theorem check_of_ok {g : Grammar} {e : Expr} (h : (g.parse text).result = .ok e) :
    ((check g).run libs text).result = .ok .valid :=
  Logged.result_bind_of_ok (Logged.result_mapError_eq_ok_iff.mpr h)

section Filter

variable {q : PreparedQuery} {events : List Event} {input : String}

theorem run_filter_of_error {err : Failure} (h : prepareText text = ⟨.ok q, events⟩)
    (hrecords : readRecords libs.json input = .error err) :
    (filter (some input)).run libs text = ⟨.error err, events⟩ := by
  have hread := Logged.ofExcept_of_error hrecords
  have hrun : (filter (some input)).run libs text = ⟨.error err, events ++ []⟩ :=
    Logged.bind_of_ok h (Logged.bind_of_error hread _)
  rwa [List.append_nil] at hrun

variable {records : List Json}

/-- The records are not searched when a pattern is refused. -/
theorem run_filter_of_refused {err : SelectionError} (h : prepareText text = ⟨.ok q, events⟩)
    (hrecords : readRecords libs.json input = .ok records)
    (hselector : q.selector libs.regex = .error err) :
    (filter (some input)).run libs text = ⟨.error (.selection err), events⟩ := by
  have hread := Logged.ofExcept_of_ok hrecords
  have hfilter := Logged.mapError_of_error (PreparedQuery.filter_of_error hselector records)
    Failure.selection
  have hrun : (filter (some input)).run libs text = ⟨.error (.selection err), events ++ []⟩ :=
    Logged.bind_of_ok h (Logged.bind_of_ok hread (Logged.bind_of_error hfilter _))
  rwa [List.append_nil] at hrun

theorem run_filter_of_ok {s : Selector libs.regex} (h : prepareText text = ⟨.ok q, events⟩)
    (hrecords : readRecords libs.json input = .ok records)
    (hselector : q.selector libs.regex = .ok s) :
    (filter (some input)).run libs text = ⟨.ok (.json (.array (records.filter s.accepts))),
      events ++ [.recordsFiltered records.length (records.filter s.accepts).length]⟩ := by
  have hread := Logged.ofExcept_of_ok hrecords
  have hfilter := Logged.mapError_of_ok (PreparedQuery.filter_of_ok hselector records)
    Failure.selection
  exact Logged.bind_of_ok h (Logged.bind_of_ok hread (Logged.bind_pure_of_ok hfilter _))

end Filter

/-- A valid query is refused for its patterns when there are records. -/
theorem filter_of_refused {e : Expr} (h : (Grammar.query.parse text).result = .ok e)
    {err : SelectionError} (hrefused : e.refusal? libs.regex = some err) {input : String}
    {records : List Json} (hrecords : readRecords libs.json input = .ok records) :
    ((filter (some input)).run libs text).result = .error (.selection err) := by
  obtain ⟨q, hprepare, hprepared⟩ := exists_prepareText h
  rw [run_filter_of_refused hprepared hrecords (selector_of_refused hprepare hrefused)]

/-- How a filter with a valid query ends: it fails for its records, or else for the first pattern
that is refused, and for nothing else. -/
theorem filter_cases {e : Expr} (h : (Grammar.query.parse text).result = .ok e) (input : String) :
    match readRecords libs.json input with
    | .error f => ¬ f.IsAboutText ∧ ((filter (some input)).run libs text).result = .error f
    | .ok _ => match e.refusal? libs.regex with
      | some err => ((filter (some input)).run libs text).result = .error (.selection err)
      | none => ∃ v, ((filter (some input)).run libs text).result = .ok (.json v) := by
  obtain ⟨q, hprepare, hprepared⟩ := exists_prepareText h
  cases hrecords : readRecords libs.json input with
  | error f =>
    refine ⟨not_isAboutText_of_readRecords hrecords, ?_⟩
    rw [run_filter_of_error hprepared hrecords]
  | ok records =>
    cases hrefused : e.refusal? libs.regex with
    | some err => exact filter_of_refused h hrefused hrecords
    | none =>
      obtain ⟨s, hselector, -⟩ := exists_selector_of_prepare hprepare hrefused
      refine ⟨.array (records.filter s.accepts), ?_⟩
      rw [run_filter_of_ok hprepared hrecords hselector]

end Task

/-- The text `name LIKE "____"`, with `n` wildcards in place of four. -/
def lengthText (n : Nat) : String :=
  "name LIKE " ++ String.ofList (Lexeme.quoted (Like.ofLength n).toList)

/-- The text is a query for every `n`, however long. -/
theorem parse_lengthText (n : Nat) :
    (Grammar.query.parse (lengthText n)).result = .ok (.hasLength n) := by
  have hparse : (Grammar.query.parse "name LIKE \"\"").result =
      .ok (.comparison ⟨["name"], by decide, by decide⟩ .like (.string "")) := by decide +kernel
  have htokens : (Lexer.ofText "name LIKE \"\"").Yields
      ([⟨.identifier "name", "name", 0⟩, ⟨.comparator .like, "LIKE", 5⟩] ++
        ⟨.string "", "\"\"", 10⟩ :: []) := ⟨.atEnd 12, rfl, by decide +kernel⟩
  obtain ⟨C, front, back, hC, -, htext, hfront, hquoted⟩ :=
    Grammar.parse_quoted hparse htokens rfl
  have hsplit : "name LIKE ".toList ++ "\"\"".toList =
      front.toList ++ ("\"\"".toList ++ back.toList) := by
    rw [← String.toList_append, ← String.toList_append, ← String.toList_append,
      ← String.append_assoc, ← htext]
    decide
  have hlength : "name LIKE ".toList.length = front.toList.length := by
    rw [String.length_toList, String.length_toList, hfront]
    decide
  obtain ⟨hbefore, hbehind⟩ := List.append_inj hsplit hlength
  obtain rfl := String.toList_injective hbefore
  obtain rfl : back = "" := String.toList_injective (List.append_right_eq_self.mp hbehind.symm)
  obtain rfl : C = .comparison ⟨["name"], by decide, by decide⟩ .like := by
    cases C <;> cases hC
    rfl
  have hlong := hquoted (Like.ofLength n)
  rwa [String.append_empty] at hlong

/-- Brackets with nothing between them can be read. -/
theorem exists_readRecords_brackets :
    ∃ records, readRecords Libraries.builtIn.json "[]" = .ok records := by
  have hread : (readRecords Libraries.builtIn.json "[]").isOk = true := by decide +kernel
  cases hrecords : readRecords Libraries.builtIn.json "[]" with
  | error f =>
    rw [hrecords] at hread
    cases hread
  | ok records => exact ⟨records, rfl⟩

/-- **The grammar decides**: a text that its grammar refuses fails with the error of the grammar,
whatever is to be done with it and whatever the records are.  A query that is not refused fails for
its records, or when these can be read, for the first of its patterns that the engine refuses.  An
expression that is not refused has a value, or it fails at one of its operators. -/
theorem run_settled_by_parse (libs : Libraries) (text : String) :
    (match (Grammar.query.parse text).result with
      | .error e =>
        (prepareText text).result = .error (.syntaxError e) ∧
          ((Task.check .query).run libs text).result = .error (.syntaxError e) ∧
          (∀ dialect, ((Task.compile dialect).run libs text).result = .error (.syntaxError e)) ∧
          ∀ input, ((Task.filter input).run libs text).result = .error (.syntaxError e)
      | .ok e =>
        (∃ q, (prepareText text).result = .ok q) ∧
          ((Task.check .query).run libs text).result = .ok .valid ∧
          (∀ dialect, ∃ v, ((Task.compile dialect).run libs text).result = .ok (.json v)) ∧
          ((Task.filter none).run libs text).result = .error .noInput ∧
          ∀ input, match readRecords libs.json input with
            | .error f =>
              ¬ f.IsAboutText ∧ ((Task.filter (some input)).run libs text).result = .error f
            | .ok _ => match e.refusal? libs.regex with
              | some err =>
                ((Task.filter (some input)).run libs text).result = .error (.selection err)
              | none => ∃ v, ((Task.filter (some input)).run libs text).result = .ok (.json v)) ∧
    match (Grammar.arithmetic.parse text).result with
      | .error e =>
        (evaluateText text).result = .error (.syntaxError e) ∧
          ((Task.check .arithmetic).run libs text).result = .error (.syntaxError e) ∧
          (Task.evaluate.run libs text).result = .error (.syntaxError e)
      | .ok _ =>
        ((Task.check .arithmetic).run libs text).result = .ok .valid ∧
          ((∃ n, (evaluateText text).result = .ok n ∧
              (Task.evaluate.run libs text).result = .ok (.integer n)) ∨
            ∃ err, (evaluateText text).result = .error (.evaluation err) ∧
              (Task.evaluate.run libs text).result = .error (.evaluation err) ∧
              err.StandsIn text) := by
  constructor
  · cases hparse : (Grammar.query.parse text).result with
    | error e =>
      have hprepare := prepareText_of_error hparse
      exact ⟨hprepare, Task.check_of_error hparse, fun _ ↦ Logged.result_bind_of_error hprepare,
        fun _ ↦ Logged.result_bind_of_error hprepare⟩
    | ok e =>
      obtain ⟨q, -, hprepared⟩ := exists_prepareText hparse
      have hq := congrArg Logged.result hprepared
      exact ⟨⟨q, hq⟩, Task.check_of_ok hparse, fun dialect ↦ ⟨_, Logged.result_bind_of_ok hq⟩,
        Logged.result_bind_of_ok hq, Task.filter_cases hparse⟩
  · cases hparse : (Grammar.arithmetic.parse text).result with
    | error e =>
      have hevaluate := evaluateText_of_error hparse
      exact ⟨hevaluate, Task.check_of_error hparse, Logged.result_bind_of_error hevaluate⟩
    | ok e =>
      refine ⟨Task.check_of_ok hparse, ?_⟩
      rcases evaluateText_cases hparse with ⟨n, hn⟩ | ⟨err, herr, hstands⟩
      · exact .inl ⟨n, hn, Logged.result_bind_of_ok hn⟩
      · exact .inr ⟨err, herr, Logged.result_bind_of_error herr, hstands⟩

/-- A text that is valid and is a query may still be refused when there are records, even none. -/
theorem run_lengthText :
    ((Task.check .query).run .builtIn (lengthText 100000)).result = .ok .valid ∧
      (∀ dialect, ∃ v,
        ((Task.compile dialect).run .builtIn (lengthText 100000)).result = .ok (.json v)) ∧
      ∃ f, f.IsAboutText ∧
        ((Task.filter (some "[]")).run .builtIn (lengthText 100000)).result = .error f := by
  have hparse := parse_lengthText 100000
  obtain ⟨q, -, hprepared⟩ := exists_prepareText hparse
  have hq := congrArg Logged.result hprepared
  refine ⟨Task.check_of_ok hparse, fun dialect ↦ ⟨_, Logged.result_bind_of_ok hq⟩,
    .selection (.pattern (Regex.tooBig 0xA00000)), trivial, ?_⟩
  obtain ⟨records, hrecords⟩ := exists_readRecords_brackets
  exact Task.filter_of_refused hparse (Expr.refusal?_hasLength (by decide)) hrecords

end RecordQuery
