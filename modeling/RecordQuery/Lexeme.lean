import RecordQuery.SyntaxError
import RecordQuery.Text.Alphabetic
import RecordQuery.Text.Numeric

/-!
# Lexemes

`Lexeme.scan` reads the lexeme at the front of a text that starts with no blank.  It answers with
the meaning or the error, the characters it took, and the rest of the text; an error also takes
the characters it has looked past, so that whoever asks again goes on from there.

* A word (`Lexeme.spanWord`) is a run of letters, digits and underscores, with single dots between
  its segments.  `AND`, `OR` and `LIKE` are keywords, every other word is a field name.
* A string (`Lexeme.scanString`) stands in double quotes; a backslash escapes a quote or a
  backslash and nothing else.
* A number is a run of ASCII digits of value at most `2 ^ 63 - 1`.
* Operators, comparators and parentheses are one or two characters.

Main statements:

* `taken_append_rest`: the characters taken and the rest are the text that was read.
* `taken_ne_nil`: a token other than the end takes at least one character.
-/

set_option autoImplicit false

namespace RecordQuery
namespace Lexeme

open Text

/-! ## Words -/

/-- Whether `c` may open a word. -/
def isWordStart (c : Char) : Bool := isAlphabetic c || c = '_'

/-- Whether `c` may stand inside a word. -/
def isWordPart (c : Char) : Bool := isAlphanumeric c || c = '_'

/-- The longest run of word characters and of dots followed by a word character, and the rest. -/
def spanWord : List Char → List Char × List Char
  | [] => ([], [])
  | c :: cs =>
    if isWordPart c || (c = '.' && cs.head?.any isWordPart) then
      (c :: (spanWord cs).1, (spanWord cs).2)
    else ([], c :: cs)

theorem spanWord_append (cs : List Char) : (spanWord cs).1 ++ (spanWord cs).2 = cs := by
  induction cs with
  | nil => rfl
  | cons c cs ih =>
    unfold spanWord
    split
    · simp [ih]
    · rfl

/-- What a complete word means. -/
def wordKind (word : String) : Token.Kind :=
  if word = "AND" then .connective .and
  else if word = "OR" then .connective .or
  else if word = "LIKE" then .comparator .like
  else .identifier word

/-! ## Strings -/

/-- How the reading of a string comes to its end. -/
inductive StringEnd where
  /-- at the closing quote -/
  | closed
  /-- at a closing quote with another quote behind it -/
  | doubled
  /-- at a backslash, because of the character after it -/
  | badEscape (c : Char)
  /-- at the end of the text -/
  | missing
deriving DecidableEq, Repr

/-- The part of a string literal behind its opening quote. -/
structure StringBody where
  /-- the characters denoted, escapes resolved -/
  text : List Char
  /-- the characters taken, the closing quote included -/
  taken : List Char
  rest : List Char
  ending : StringEnd
deriving DecidableEq, Repr

/-- The body with one more character in front, written as `written`. -/
def StringBody.push (c : Char) (written : List Char) (b : StringBody) : StringBody :=
  { b with text := c :: b.text, taken := written ++ b.taken }

/-- Reads a string behind its opening quote. -/
def scanString : List Char → StringBody
  | [] => ⟨[], [], [], .missing⟩
  | c :: cs =>
    if c = '"' then
      ⟨[], [c], cs, if cs.head? = some '"' then .doubled else .closed⟩
    else if c = '\\' then
      match cs with
      | [] => ⟨[], [c], [], .missing⟩
      | d :: ds =>
        if d = '"' ∨ d = '\\' then (scanString ds).push d [c, d]
        else ⟨[], [c], d :: ds, .badEscape d⟩
    else (scanString cs).push c [c]

theorem scanString_append (cs : List Char) :
    (scanString cs).taken ++ (scanString cs).rest = cs := by
  fun_induction scanString cs <;> simp_all [StringBody.push]

/-! ## Any lexeme -/

/-- What reading one lexeme gives. -/
structure Scan where
  outcome : Except SyntaxError Token.Kind
  /-- the characters read -/
  taken : List Char
  rest : List Char

/-- The string literal whose body, behind a quote at `start`, is `b`. -/
def stringScan (start : Nat) (b : StringBody) : Scan where
  outcome :=
    match b.ending with
    | .closed => .ok (.string (String.ofList b.text))
    | .doubled => .error ⟨.doubledQuote, start + 1 + b.taken.length⟩
    | .badEscape c => .error ⟨.invalidEscape c, start + b.taken.length⟩
    | .missing => .error ⟨.unterminatedString, start⟩
  taken := '"' :: b.taken
  rest := b.rest

/-- The word at the front of `cs`, at `start`; a dot left behind it has no segment after it. -/
def wordScan (start : Nat) (cs : List Char) : Scan where
  outcome :=
    if (spanWord cs).2.head? = some '.' then
      .error ⟨.emptySegment, start + (spanWord cs).1.length⟩
    else .ok (wordKind (String.ofList (spanWord cs).1))
  taken := (spanWord cs).1
  rest := (spanWord cs).2

/-- The number at the front of `cs`, at `start`. -/
def numberScan (start : Nat) (cs : List Char) : Scan where
  outcome :=
    match Integer.ofInt? (Nat.ofDigitChars 10 (cs.takeWhile Char.isDigit) 0) with
    | some value => .ok (.number value)
    | none => .error ⟨.numberTooLarge, start⟩
  taken := cs.takeWhile Char.isDigit
  rest := cs.dropWhile Char.isDigit

/-- Reads the lexeme at the front of a text, the front being at offset `start`. -/
def scan (start : Nat) : List Char → Scan
  | [] => ⟨.ok .finish, [], []⟩
  | '+' :: cs => ⟨.ok (.operator .add), ['+'], cs⟩
  | '-' :: cs => ⟨.ok (.operator .subtract), ['-'], cs⟩
  | '*' :: cs => ⟨.ok (.operator .multiply), ['*'], cs⟩
  | '/' :: cs => ⟨.ok (.operator .divide), ['/'], cs⟩
  | '(' :: cs => ⟨.ok .leftParen, ['('], cs⟩
  | ')' :: cs => ⟨.ok .rightParen, [')'], cs⟩
  | '=' :: cs => ⟨.ok (.comparator .equal), ['='], cs⟩
  | '<' :: '=' :: cs => ⟨.ok (.comparator .lessEqual), ['<', '='], cs⟩
  | '<' :: cs => ⟨.ok (.comparator .lessThan), ['<'], cs⟩
  | '>' :: '=' :: cs => ⟨.ok (.comparator .greaterEqual), ['>', '='], cs⟩
  | '>' :: cs => ⟨.ok (.comparator .greaterThan), ['>'], cs⟩
  | '!' :: '=' :: cs => ⟨.ok (.comparator .notEqual), ['!', '='], cs⟩
  | '!' :: cs => ⟨.error ⟨.loneExclamation, start⟩, [], '!' :: cs⟩
  | '"' :: cs => stringScan start (scanString cs)
  | c :: cs =>
    if isWordStart c then wordScan start (c :: cs)
    else if c.isDigit then numberScan start (c :: cs)
    else ⟨.error ⟨.unrecognized c, start⟩, [], c :: cs⟩

/-- The characters taken and the rest are the text. -/
theorem taken_append_rest (start : Nat) (cs : List Char) :
    (scan start cs).taken ++ (scan start cs).rest = cs := by
  fun_cases scan start cs <;>
    simp [stringScan, wordScan, numberScan, scanString_append, spanWord_append]

theorem isWordPart_of_isWordStart {c : Char} (h : isWordStart c = true) :
    isWordPart c = true := by
  simp only [isWordStart, isWordPart, isAlphanumeric, Bool.or_eq_true] at h ⊢
  rcases h with h | h
  · exact .inl (.inl h)
  · exact .inr h

private theorem spanWord_fst_ne_nil {c : Char} {cs : List Char} (h : isWordStart c = true) :
    (spanWord (c :: cs)).1 ≠ [] := by
  simp [spanWord, isWordPart_of_isWordStart h]

/-- A token other than the end takes at least one character. -/
theorem taken_ne_nil {start : Nat} {cs : List Char} {kind : Token.Kind}
    (h : (scan start cs).outcome = .ok kind) (hk : kind ≠ .finish) :
    (scan start cs).taken ≠ [] := by
  revert h
  fun_cases scan start cs
  case case1 => rintro ⟨⟩; exact absurd rfl hk
  case case14 => nofun
  all_goals intro h
  all_goals try exact List.cons_ne_nil _ _
  case case16 c cs hc => exact spanWord_fst_ne_nil hc
  case case17 c cs _ hc => simp [numberScan, hc]
  case case18 => nomatch h

end Lexeme
end RecordQuery
