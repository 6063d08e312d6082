import RecordQuery.Proofs.Displacement
import RecordQuery.Proofs.Resumption
import RecordQuery.Proofs.Reuse

/-!
# Wherever a text starts

Neither the lexer nor the parser looks back, so what comes before a place of a text makes no
difference to what is read from there on.  Only the offsets count it.  They are found in tokens, in
trees, in errors, and in the one message that tells where a parenthesis was opened.

Reading from a place is therefore compared with reading the rest of the text on its own.  Everything
that holds an offset can be moved by `n` characters.  One step of the grammar on a moved state and a
moved token is the moved step (`Grammar.step_shift`), and from there it goes on to whole calls and
to sequences of calls.

* `SyntaxError.shift`, `Token.shift`, `Grammar.State.shift`, `Parser.shift`: everything moved by `n`
  characters.
* `SyntaxError.Cause.message_shift`: what this does to the words of an error.
* `Lexer.read_shift`: a moved lexer reads the moved token, or fails with the moved error.
* `Grammar.step_shift`, `Parser.run_shift`, `Parser.outcomes_shift`: the same of the parser.
* `Lexer.eq_shift_of_isAt`: a lexer inside a text is the moved lexer of the rest.
* `Parser.session_relocated`: a parser built at a place of a text, over all its calls.
-/

set_option autoImplicit false

namespace RecordQuery

/-! ## Tokens and errors -/

/-- The token `n` characters further on. -/
def Token.shift (n : Nat) (t : Token) : Token := { t with offset := t.offset + n }

/-- The expectation in a text that stands `n` characters further on. -/
def Expectation.shift (n : Nat) : Expectation → Expectation
  | closing opening => closing (opening + n)
  | number => number
  | condition => condition
  | comparator field => comparator field
  | literal op => literal op

namespace SyntaxError

/-- The cause in a text that stands `n` characters further on. -/
def Cause.shift (n : Nat) : Cause → Cause
  | misplaced wanted found => misplaced (wanted.shift n) (found.shift n)
  | trailing found => trailing (found.shift n)
  | emptySegment => emptySegment
  | doubledQuote => doubledQuote
  | invalidEscape c => invalidEscape c
  | unterminatedString => unterminatedString
  | numberTooLarge => numberTooLarge
  | loneExclamation => loneExclamation
  | unrecognized c => unrecognized c
  | patternRequired => patternRequired
  | invalidPath => invalidPath

/-- The error `n` characters further on. -/
def shift (n : Nat) (e : SyntaxError) : SyntaxError := ⟨e.cause.shift n, e.position + n⟩

/-- An error says the same wherever it stands, except for the place of an open parenthesis. -/
theorem Cause.message_shift (n : Nat) (cause : Cause) :
    (cause.shift n).message =
      match cause with
      | misplaced (.closing opening) found =>
        "expected " ++ ("')' to close '(' at position " ++ toString (opening + n)) ++ ", found " ++
          found.inWords
      | _ => cause.message := by
  cases cause with
  | misplaced wanted found => cases wanted <;> rfl
  | trailing | emptySegment | doubledQuote | invalidEscape | unterminatedString | numberTooLarge
  | loneExclamation | unrecognized | patternRequired | invalidPath => rfl

end SyntaxError

/-! ## The lexer -/

/-- What reading one lexeme gives `n` characters further on. -/
def Lexeme.Scan.shift (n : Nat) (s : Scan) : Scan :=
  { s with outcome := s.outcome.mapError (SyntaxError.shift n) }

namespace Lexeme

theorem stringScan_shift (n start : Nat) (b : StringBody) :
    stringScan (start + n) b = (stringScan start b).shift n := by
  rw [stringScan, stringScan, Scan.shift]
  cases b.ending with
  | closed | missing => rfl
  | doubled =>
    have hposition : start + n + 1 + b.taken.length = start + 1 + b.taken.length + n := by omega
    simp only [hposition]
    rfl
  | badEscape c =>
    have hposition : start + n + b.taken.length = start + b.taken.length + n := by omega
    simp only [hposition]
    rfl

theorem wordScan_shift (n start : Nat) (cs : List Char) :
    wordScan (start + n) cs = (wordScan start cs).shift n := by
  rw [wordScan, wordScan, Scan.shift]
  split_ifs
  · have hposition : start + n + (spanWord cs).1.length = start + (spanWord cs).1.length + n := by
      omega
    rw [hposition]
    rfl
  · rfl

theorem numberScan_shift (n start : Nat) (cs : List Char) :
    numberScan (start + n) cs = (numberScan start cs).shift n := by
  rw [numberScan, numberScan, Scan.shift]
  cases Integer.ofInt? (Nat.ofDigitChars 10 (cs.takeWhile Char.isDigit) 0) <;> rfl

/-- Where a lexeme stands makes a difference to nothing but its error. -/
theorem scan_shift (n start : Nat) (cs : List Char) :
    scan (start + n) cs = (scan start cs).shift n := by
  fun_cases scan start cs
  case case15 cs => exact stringScan_shift n start (scanString cs)
  case case16 hword => rw [scan_of_isWordStart hword, wordScan_shift]
  case case17 hdigit => rw [scan_of_isDigit hdigit, numberScan_shift]
  -- signs and characters that are looked at only after others have been ruled out
  case case10 | case12 | case14 =>
    rw [scan]
    · rfl
    · assumption
  case case18 hword hdigit =>
    rw [scan, if_neg hword, if_neg hdigit]
    · rfl
    all_goals assumption
  all_goals rfl

end Lexeme

/-- The answer of a lexer that stands `n` characters further on. -/
def Token.shiftAnswer (n : Nat) (r : Except SyntaxError Token) : Except SyntaxError Token :=
  (r.map (shift n)).mapError (SyntaxError.shift n)

namespace Lexer

/-- The lexer with its place `n` characters further on, and the same left to read. -/
def shift (n : Nat) (l : Lexer) : Lexer := { l with position := l.position + n }

variable (n : Nat) (l : Lexer)

theorem start_shift : (l.shift n).start = l.start + n := Nat.add_right_comm ..

theorem scan_shift : (l.shift n).scan = l.scan.shift n := by
  rw [scan, scan, start_shift, ← Lexeme.scan_shift]
  rfl

theorem afterNext_shift : (l.shift n).afterNext = l.afterNext.shift n := by
  rw [afterNext, afterNext, scan_shift, start_shift, Nat.add_right_comm]
  rfl

/-- A moved lexer reads the moved token, or fails with the moved error. -/
theorem read_shift : (l.shift n).read = (Token.shiftAnswer n l.read.1, l.read.2.shift n) := by
  rw [read, read, afterNext_shift, scan_shift, start_shift, Lexeme.Scan.shift]
  cases houtcome : l.scan.outcome <;> rfl

theorem after_shift (k : Nat) : (l.shift n).after k = (l.after k).shift n := by
  induction k with
  | zero => rfl
  | succ k ih => rw [after, ih, read_shift, after]

/-- A moved lexer gives the moved answers. -/
theorem answers_shift (k : Nat) :
    (l.shift n).answers k = (l.answers k).map (Token.shiftAnswer n) := by
  induction k with
  | zero => rfl
  | succ k ih => rw [answers, ih, after_shift, read_shift, answers, List.map_append]; rfl

end Lexer

/-! ## The grammar -/

namespace Grammar

variable (n : Nat)

/-- The operator `n` characters further on. -/
def Operator.shift : Operator → Operator
  | arithmetic op position => arithmetic op (position + n)
  | logical connective => logical connective

/-- The left operand and its operator `n` characters further on. -/
def Pending.shift (p : Pending) : Pending := ⟨p.left.shift n, p.operator.shift n⟩

/-- The level `n` characters further on. -/
def Level.shift (l : Level) : Level :=
  ⟨l.loose.map (Pending.shift n), l.tight.map (Pending.shift n)⟩

/-- What is awaited, with an operand that has been read `n` characters further on. -/
def Awaiting.shift : Awaiting → Awaiting
  | operator e => operator (e.shift n)
  | operand => operand
  | comparator field => comparator field
  | literal field op => literal field op

/-- The part of a sentence that has been read `n` characters further on. -/
def State.shift (s : State) : State :=
  ⟨s.awaiting.shift n, s.level.shift n, s.enclosing.map fun outer ↦ (outer.1 + n, outer.2.shift n)⟩

/-- What becomes of a token `n` characters further on. -/
def Step.moved : Step → Step
  | shift next => shift (next.shift n)
  | accept e => accept (e.shift n)
  | reject e => reject (e.shift n)

theorem Operator.isTight_shift (op : Operator) : (op.shift n).isTight = op.isTight := by
  cases op with
  | arithmetic op position => cases op <;> rfl
  | logical connective => rfl

theorem Operator.join_shift (op : Operator) (left right : Expr) :
    (op.shift n).join (left.shift n) (right.shift n) = (op.join left right).shift n := by
  cases op <;> rfl

theorem operator?_shift (g : Grammar) (t : Token) :
    g.operator? (t.shift n) = (g.operator? t).map (Operator.shift n) := by
  obtain ⟨kind, lexeme, offset⟩ := t
  cases g <;> cases kind <;> rfl

namespace Level

theorem closeTight_shift (l : Level) (operand : Expr) :
    (l.shift n).closeTight (operand.shift n) = (l.closeTight operand).shift n := by
  obtain ⟨loose, tight⟩ := l
  cases tight with
  | none => rfl
  | some p => exact p.operator.join_shift n p.left operand

theorem close_shift (l : Level) (operand : Expr) :
    (l.shift n).close (operand.shift n) = (l.close operand).shift n := by
  obtain ⟨loose, tight⟩ := l
  cases loose with
  | none => exact closeTight_shift n ⟨none, tight⟩ operand
  | some p =>
    have hinner := closeTight_shift n ⟨some p, tight⟩ operand
    rw [close, close]
    simp only [hinner]
    exact p.operator.join_shift n p.left _

theorem push_shift (l : Level) (operand : Expr) (op : Operator) :
    (l.shift n).push (operand.shift n) (op.shift n) = (l.push operand op).shift n := by
  rw [push, push, op.isTight_shift, closeTight_shift, close_shift]
  split_ifs <;> rfl

end Level

theorem stepOperand_shift (g : Grammar) (s : State) (t : Token) :
    g.stepOperand (s.shift n) (t.shift n) = (g.stepOperand s t).moved n := by
  obtain ⟨kind, lexeme, offset⟩ := t
  cases kind with
  | identifier name =>
    cases g with
    | arithmetic => rfl
    | query =>
      simp only [stepOperand, Token.shift]
      cases FieldPath.ofName? name <;> rfl
  | leftParen | number | string | operator | comparator | connective | rightParen | finish =>
    cases g <;> rfl

theorem stepComparator_shift (s : State) (field : FieldPath) (t : Token) :
    stepComparator (s.shift n) field (t.shift n) = (stepComparator s field t).moved n := by
  obtain ⟨kind, lexeme, offset⟩ := t
  cases kind <;> rfl

theorem stepLiteral_shift (s : State) (field : FieldPath) (op : Comparator) (t : Token) :
    stepLiteral (s.shift n) field op (t.shift n) = (stepLiteral s field op t).moved n := by
  obtain ⟨kind, lexeme, offset⟩ := t
  cases kind with
  | number value =>
    simp only [stepLiteral, Token.shift]
    split_ifs <;> rfl
  | leftParen | identifier | string | operator | comparator | connective | rightParen | finish =>
    rfl

theorem stepClosing_shift (s : State) (operand : Expr) (t : Token) :
    stepClosing (s.shift n) (operand.shift n) (t.shift n) = (stepClosing s operand t).moved n := by
  obtain ⟨awaiting, level, enclosing⟩ := s
  have hclose := level.close_shift n operand
  cases enclosing with
  | nil =>
    simp only [stepClosing, State.shift, List.map_nil, hclose]
    have hend : (t.shift n).isEnd = t.isEnd := rfl
    rw [hend]
    cases t.isEnd <;> rfl
  | cons outer enclosing =>
    simp only [stepClosing, State.shift, List.map_cons, hclose]
    have hkind : (t.shift n).kind = t.kind := rfl
    rw [hkind]
    split_ifs <;> rfl

/-- A moved token does to a moved state what the token does to the state. -/
theorem step_shift (g : Grammar) (s : State) (t : Token) :
    g.step (s.shift n) (t.shift n) = (g.step s t).moved n := by
  obtain ⟨awaiting, level, enclosing⟩ := s
  cases awaiting with
  | operand => exact stepOperand_shift n g _ t
  | comparator field => exact stepComparator_shift n _ field t
  | literal field op => exact stepLiteral_shift n _ field op t
  | operator operand =>
    rw [step, step]
    simp only [State.shift, Awaiting.shift]
    rw [operator?_shift]
    cases g.operator? t with
    | none => exact stepClosing_shift n ⟨.operator operand, level, enclosing⟩ operand t
    | some op =>
      simp only [Option.map_some, level.push_shift]
      rfl

end Grammar

/-! ## The parser -/

/-- What comes of a sentence `n` characters further on.  The events hold no offset. -/
def Logged.shift (n : Nat) (x : Logged SyntaxError Expr) : Logged SyntaxError Expr :=
  ⟨(x.result.map (Expr.shift n)).mapError (SyntaxError.shift n), x.events⟩

namespace Parser

variable (n : Nat)

/-- The parser `n` characters further on. -/
def shift (p : Parser) : Parser := ⟨p.lexer.shift n, p.current.shift n, p.consumed⟩

theorem ofLexer_shift (l : Lexer) :
    ofLexer (l.shift n) = ((ofLexer l).map (shift n)).mapError (SyntaxError.shift n) := by
  rw [ofLexer, ofLexer, Lexer.read_shift]
  cases l.read.1 <;> rfl

theorem consume_shift (p : Parser) :
    (p.shift n).consume = (p.consume.1.mapError (SyntaxError.shift n), p.consume.2.shift n) := by
  have hread := p.lexer.read_shift n
  rw [consume, consume, shift]
  simp only
  rw [hread]
  rcases p.lexer.read with ⟨e | t, l⟩ <;> rfl

/-- A moved parser comes to the moved result, and it is the moved parser then. -/
theorem run_shift (g : Grammar) (s : Grammar.State) (p : Parser) :
    (p.shift n).run g (s.shift n) =
      (((p.run g s).1.map (Expr.shift n)).mapError (SyntaxError.shift n),
        (p.run g s).2.shift n) := by
  fun_induction run g s p with
  | case1 s p e h =>
    have hstep := Grammar.step_shift n g s p.current
    rw [h] at hstep
    exact run_of_accept (p := p.shift n) hstep
  | case2 s p e h =>
    have hstep := Grammar.step_shift n g s p.current
    rw [h] at hstep
    exact run_of_reject (p := p.shift n) hstep
  | case3 s p next h e p' hconsume =>
    have hstep := Grammar.step_shift n g s p.current
    have hmoved := p.consume_shift n
    rw [h] at hstep
    rw [hconsume] at hmoved
    exact run_of_consume_error (p := p.shift n) hstep hmoved
  | case4 s p next h p' hconsume hlt ih =>
    have hstep := Grammar.step_shift n g s p.current
    have hmoved := p.consume_shift n
    rw [h] at hstep
    rw [hconsume] at hmoved
    rw [run_of_consume_ok (p := p.shift n) hstep hmoved, ih]

theorem parse_shift (g : Grammar) (p : Parser) :
    (p.shift n).parse g = ((p.parse g).1.shift n, (p.parse g).2.shift n) := by
  have hrun := p.run_shift n g .initial
  rw [parse, parse]
  change (p.shift n).run g .initial = _ at hrun
  rw [hrun]
  rcases p.run g .initial with ⟨e | e, p'⟩ <;> rfl

/-- A moved parser comes to the moved results, however often it is called. -/
theorem outcomes_shift (p : Parser) (gs : List Grammar) :
    (p.shift n).outcomes gs = (p.outcomes gs).map (Logged.shift n) := by
  induction gs generalizing p with
  | nil => rfl
  | cons g gs ih => rw [outcomes, parse_shift, ih, outcomes, List.map_cons]

end Parser

/-! ## Places of a text -/

namespace Lexer

/-- However often a lexer was asked, it is at a place of its text, and its stream has not been
pulled from. -/
theorem isAt_after (text : String) (k : Nat) :
    ((ofText text).after k).IsAt text ∧ ((ofText text).after k).finished = false := by
  induction k with
  | zero => exact ⟨.ofText text, rfl⟩
  | succ k ih => exact ⟨ih.1.afterNext, ih.2⟩

/-- A lexer inside a text is the moved lexer of the rest. -/
theorem eq_shift_of_isAt {l : Lexer} {text : String} (h : l.IsAt text)
    (hfinished : l.finished = false) :
    l = (ofText (String.ofList (text.toList.drop l.position))).shift l.position := by
  rw [← h.rest, ofText, shift, String.toList_ofList, Nat.zero_add, ← hfinished]

/-- Blanks that are skipped are only counted. -/
theorem read_append_blanks {blanks : List Char} (h : ∀ c ∈ blanks, Text.isBlank c = true)
    (cs : List Char) (position : Nat) (finished : Bool) :
    read ⟨blanks ++ cs, position, finished⟩ = read ⟨cs, position + blanks.length, finished⟩ := by
  have hstart : start ⟨blanks ++ cs, position, finished⟩ =
      start ⟨cs, position + blanks.length, finished⟩ := by
    rw [start, start, Lexer.blanks, Lexer.blanks]
    simp only
    rw [List.takeWhile_append_of_pos h, List.length_append, Nat.add_assoc]
  have hscan : scan ⟨blanks ++ cs, position, finished⟩ =
      scan ⟨cs, position + blanks.length, finished⟩ := by
    rw [scan, scan, hstart]
    simp only
    rw [List.dropWhile_append_of_pos h]
  rw [read, read, afterNext, afterNext, hscan, hstart]

end Lexer

namespace Parser

/-- A parser is built on a lexer and called for one sentence after another. -/
def session (l : Lexer) (gs : List Grammar) :
    Except SyntaxError (List (Logged SyntaxError Expr)) :=
  (ofLexer l).map (·.outcomes gs)

/-- What comes of a session `n` characters further on. -/
def shiftSession (n : Nat) (r : Except SyntaxError (List (Logged SyntaxError Expr))) :
    Except SyntaxError (List (Logged SyntaxError Expr)) :=
  (r.map (List.map (Logged.shift n))).mapError (SyntaxError.shift n)

theorem session_shift (n : Nat) (l : Lexer) (gs : List Grammar) :
    session (l.shift n) gs = shiftSession n (session l gs) := by
  rw [session, session, ofLexer_shift]
  cases ofLexer l with
  | error e => rfl
  | ok p => exact congrArg Except.ok (p.outcomes_shift n gs)

/-- Only what is read of a lexer matters to a session. -/
theorem session_congr {l l' : Lexer} (h : l.read = l'.read) (gs : List Grammar) :
    session l gs = session l' gs := by
  rw [session, session, ofLexer, ofLexer, h]

/-- **A text may start anywhere**: a lexer that has been asked any number of times answers, and a
parser built on it does, as if the rest of the text were all there is.  Only the offsets are greater
by the place where the lexer stands.  Trees hold them at their operators, and so do errors, whose
words are the same except for the place of an open parenthesis.  Blanks in front of a text do
nothing else. -/
theorem session_relocated (text : String) :
    (∀ k : Nat,
      let l := (Lexer.ofText text).after k
      let rest := Lexer.ofText (String.ofList (text.toList.drop l.position))
      (∀ m, l.answers m = (rest.answers m).map (Token.shiftAnswer l.position)) ∧
        ∀ gs, session l gs = shiftSession l.position (session rest gs)) ∧
    (∀ blanks : String, (∀ c ∈ blanks.toList, Text.isBlank c = true) → ∀ gs,
      session (.ofText (blanks ++ text)) gs =
        shiftSession blanks.length (session (.ofText text) gs)) ∧
    ∀ (n : Nat) (cause : SyntaxError.Cause), (cause.shift n).message =
      match cause with
      | .misplaced (.closing opening) found =>
        "expected " ++ ("')' to close '(' at position " ++ toString (opening + n)) ++ ", found " ++
          found.inWords
      | _ => cause.message := by
  refine ⟨fun k ↦ ?_, fun blanks hblanks gs ↦ ?_, SyntaxError.Cause.message_shift⟩
  · intro l rest
    obtain ⟨hat, hfinished⟩ := Lexer.isAt_after text k
    have hl : l = rest.shift l.position := Lexer.eq_shift_of_isAt hat hfinished
    refine ⟨fun m ↦ ?_, fun gs ↦ ?_⟩
    · conv_lhs => rw [hl]
      exact rest.answers_shift l.position m
    · conv_lhs => rw [hl]
      exact session_shift l.position rest gs
  · rw [← session_shift]
    refine session_congr ?_ gs
    rw [Lexer.ofText, String.toList_append, Lexer.read_append_blanks hblanks, String.length_toList]
    rfl

/-- In the text by itself the parenthesis is opened at its first character and the errors stand at
`7` and `8`.  Behind two blanks all three are two characters further on. -/
theorem session_relocated_behind_blanks :
    (∀ c ∈ " \t".toList, Text.isBlank c = true) ∧
      (session (.ofText (" \t" ++ "(1 + 2 x")) [.arithmetic, .query]).map (List.map (·.result)) =
        .ok [.error ⟨.misplaced (.closing 2) ⟨.identifier "x", "x", 9⟩, 9⟩,
          .error ⟨.misplaced (.comparator ⟨["x"], by decide, by decide⟩) ⟨.finish, "", 10⟩,
            10⟩] := by
  have hblanks : ∀ c ∈ " \t".toList, Text.isBlank c = true := List.all_eq_true.mp (by decide)
  refine ⟨hblanks, ?_⟩
  rw [(session_relocated "(1 + 2 x").2.1 " \t" hblanks]
  decide +kernel

end Parser
end RecordQuery
