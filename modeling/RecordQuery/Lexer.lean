import RecordQuery.Lexeme
import RecordQuery.Text.Blank

/-!
# Tokens of a text, one at a time

A `Lexer` is a place in a text: what is left to read and how many characters came before.
`Lexer.read` skips blanks and reads one lexeme.  It may be asked again after an error and then goes
on from wherever the error left off.

`Lexer.pull` is the same as a stream that ends: it yields nothing once it has yielded the end or an
error.  `Lexer.tokens` is the whole stream.

* `read_rest`: reading takes the blanks and the lexeme off the front, and nothing else.
* `length_rest_lt`: after a token other than the end there is less left to read.
-/

set_option autoImplicit false

namespace RecordQuery

/-- A place in a text. -/
structure Lexer where
  /-- what is left to read -/
  rest : List Char
  /-- the number of characters read -/
  position : Nat
  /-- whether the stream of tokens has ended -/
  finished : Bool
deriving DecidableEq, Repr

namespace Lexer

open Text

/-- The beginning of `text`. -/
def ofText (text : String) : Lexer := ⟨text.toList, 0, false⟩

/-- The blanks in front of the next lexeme. -/
def blanks (l : Lexer) : List Char := l.rest.takeWhile isBlank

/-- The offset of the next lexeme. -/
def start (l : Lexer) : Nat := l.position + l.blanks.length

/-- The lexeme behind the blanks. -/
def scan (l : Lexer) : Lexeme.Scan := Lexeme.scan l.start (l.rest.dropWhile isBlank)

/-- The lexer behind the blanks and the next lexeme. -/
def afterNext (l : Lexer) : Lexer :=
  { l with rest := l.scan.rest, position := l.start + l.scan.taken.length }

/-- The next token, or the error in its place, and the lexer behind it. -/
def read (l : Lexer) : Except SyntaxError Token × Lexer :=
  (l.scan.outcome.map (⟨·, String.ofList l.scan.taken, l.start⟩), l.afterNext)

/-- The next item of the stream, which ends behind the end token and behind an error. -/
def pull (l : Lexer) : Option (Except SyntaxError Token) × Lexer :=
  if l.finished then (none, l)
  else
    match l.read with
    | (.ok t, l') => (some (.ok t), { l' with finished := t.isEnd })
    | (.error e, l') => (some (.error e), { l' with finished := true })

theorem read_rest (l : Lexer) :
    l.blanks ++ l.scan.taken ++ l.afterNext.rest = l.rest := by
  rw [List.append_assoc, afterNext, scan, Lexeme.taken_append_rest, blanks,
    List.takeWhile_append_dropWhile]

/-- After a token other than the end there is less left to read. -/
theorem length_rest_lt {l l' : Lexer} {t : Token} (h : l.read = (.ok t, l'))
    (ht : t.isEnd = false) : l'.rest.length < l.rest.length := by
  have hrest := congrArg List.length l.read_rest
  have hne : l.scan.taken ≠ [] := by
    cases hk : l.scan.outcome with
    | error e => rw [read, hk] at h; cases h
    | ok kind =>
      rw [read, hk] at h
      cases h
      exact Lexeme.taken_ne_nil hk (by simpa [Token.isEnd] using ht)
  have := List.length_pos_iff.mpr hne
  have hl : l.afterNext = l' := congrArg Prod.snd h
  simp only [List.length_append, hl] at hrest
  omega

/-- The tokens from `l` on, up to and including the end or the first error. -/
def tokens (l : Lexer) : List (Except SyntaxError Token) :=
  match h : l.read with
  | (.error e, _) => [.error e]
  | (.ok t, l') =>
    if ht : t.isEnd then [.ok t]
    else
      have := length_rest_lt h (by simpa using ht)
      .ok t :: l'.tokens
termination_by l.rest.length

end Lexer

end RecordQuery
