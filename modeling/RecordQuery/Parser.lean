import RecordQuery.Grammar
import RecordQuery.Lexer
import RecordQuery.Logged

/-!
# Reading sentences

A `Parser` is a lexer together with the token read last, which is not yet consumed.
`Parser.parse` reads one sentence of either grammar, from the current token to the end of the text.
It stops at the first error and may be called again; the current token is replaced only when the
next one has been read, so a lexical error leaves it in place.

* `Parser.consume`: takes the current token and reads the next one.
* `Parser.run`: from a part of a sentence to its end.
* `Grammar.parse`: the sentence that a whole text is.
-/

set_option autoImplicit false

namespace RecordQuery

/-- A lexer and the token in front of it. -/
structure Parser where
  lexer : Lexer
  /-- the token to consume next -/
  current : Token
  /-- the number of tokens consumed -/
  consumed : Nat
deriving DecidableEq, Repr

namespace Parser

/-- The parser whose first token is the next one of `l`. -/
def ofLexer (l : Lexer) : Except SyntaxError Parser :=
  l.read.1.map fun t ↦ ⟨l.read.2, t, 0⟩

/-- Consumes the current token and reads the next one. -/
def consume (p : Parser) : Except SyntaxError Unit × Parser :=
  match p.lexer.read with
  | (.ok t, l) => (.ok (), ⟨l, t, p.consumed + 1⟩)
  | (.error e, l) => (.error e, { p with lexer := l })

/-- A bound on the number of tokens that can still be consumed. -/
def remaining (p : Parser) : Nat := if p.current.isEnd then 0 else p.lexer.rest.length + 1

theorem remaining_consume_lt {p p' : Parser} (hp : p.current.isEnd = false)
    (h : p.consume = (.ok (), p')) : p'.remaining < p.remaining := by
  unfold consume at h
  split at h
  · rename_i t l hl
    cases h
    cases ht : t.isEnd
    · have := Lexer.length_rest_lt hl ht
      simp [remaining, hp, ht]
      omega
    · simp [remaining, hp, ht]
  · cases h

/-- Reads on from the part `s` of a sentence to its end. -/
def run (g : Grammar) (s : Grammar.State) (p : Parser) : Except SyntaxError Expr × Parser :=
  match h : g.step s p.current with
  | .accept e => (.ok e, p)
  | .reject e => (.error e, p)
  | .shift next =>
    match ha : p.consume with
    | (.error e, p') => (.error e, p')
    | (.ok (), p') =>
      have := remaining_consume_lt (Grammar.isEnd_of_step_eq_shift h) ha
      run g next p'
termination_by p.remaining

/-- Reads a sentence and reports how many tokens the parser has consumed. -/
def parse (g : Grammar) (p : Parser) : Logged SyntaxError Expr × Parser :=
  match p.run g .initial with
  | (.ok e, p') => (⟨.ok e, [.tokensParsed p'.consumed]⟩, p')
  | (.error e, p') => (.ofExcept (.error e), p')

end Parser

/-- The sentence that `text` is. -/
def Grammar.parse (g : Grammar) (text : String) : Logged SyntaxError Expr := do
  let p ← .ofExcept (Parser.ofLexer (Lexer.ofText text))
  (p.parse g).1

end RecordQuery
