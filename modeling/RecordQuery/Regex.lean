import RecordQuery.Text.CaseFold

/-!
# Regular expressions

Expressions are handed over as text to an engine that is not part of this library.  `Regex.Engine`
is what an engine offers, and everything that uses one works with any engine.

What an engine can be relied on for is `Regex.Engine.Lawful`.  It is said for expressions without
groups, alternatives or classes: flags for the whole of it, and behind them one piece after another.
An engine may refuse an expression for reasons of its own, for instance because it would become too
big.  If it does not, a text matches when some part of it does, wherever that part stands.

* `Regex.Spells`: how an expression is written.
* `Regex.Found`: when some part of a text matches.
* `Regex.Engine.Lawful`: an engine finds what is there.
-/

set_option autoImplicit false

namespace RecordQuery
namespace Regex

/-- An engine for regular expressions. -/
structure Engine where
  /-- expressions that are ready to be searched for -/
  Compiled : Type
  /-- the expression for a given text -/
  escape : String → String
  /-- makes an expression ready, or says in words why it cannot -/
  compile : String → Except String Compiled
  /-- whether some part of a text matches -/
  isMatch : Compiled → String → Bool

/-! ## Expressions -/

/-- What is set for the whole of an expression. -/
structure Flags where
  /-- letters stand for themselves up to case -/
  ignoreCase : Bool
  /-- the anchors also hold at line feeds -/
  multiLine : Bool
  /-- a dot also stands for a line feed -/
  dotAll : Bool
deriving DecidableEq, Repr

/-- What stands for one character. -/
inductive Atom where
  | any
  | letter (c : Char)
deriving DecidableEq, Repr

/-- A piece of an expression. -/
inductive Piece where
  | once (a : Atom)
  /-- any number of characters, one behind the other -/
  | many (a : Atom)
  /-- the beginning of the text, which takes no character -/
  | start
  /-- the end of the text, which takes no character -/
  | stop
deriving DecidableEq, Repr

/-! ## Writing -/

/-- The flags in front of an expression; without any there is nothing. -/
def Flags.text (flags : Flags) : List Char :=
  let letters := (if flags.ignoreCase then ['i'] else []) ++
    (if flags.multiLine then ['m'] else []) ++ if flags.dotAll then ['s'] else []
  if letters = [] then [] else '(' :: '?' :: letters ++ [')']

/-- Whether `c` means something else than itself in one place or another. -/
def isMeta (c : Char) : Bool :=
  ['\\', '.', '+', '*', '?', '(', ')', '|', '[', ']', '\x7b', '\x7d', '^', '$', '#', '&', '-',
    '~'].contains c

/-- How an atom is written.  Behind a backslash a character stands for itself. -/
inductive Atom.Spells : Atom → List Char → Prop
  | any : Spells any ['.']
  | plain {c : Char} (h : isMeta c = false) : Spells (letter c) [c]
  | escaped {c : Char} (h : isMeta c = true) : Spells (letter c) ['\\', c]

/-- How a piece is written. -/
inductive Piece.Spells : Piece → List Char → Prop
  | once {a : Atom} {cs : List Char} (h : a.Spells cs) : Spells (once a) cs
  | many {a : Atom} {cs : List Char} (h : a.Spells cs) : Spells (many a) (cs ++ ['*'])
  | start : Spells start ['^']
  | stop : Spells stop ['$']

/-- How pieces are written one behind the other. -/
inductive Body : List Piece → List Char → Prop
  | nil : Body [] []
  | cons {p : Piece} {ps : List Piece} {cs ds : List Char} (h : p.Spells cs) (hs : Body ps ds) :
      Body (p :: ps) (cs ++ ds)

/-- How an expression is written. -/
def Spells (flags : Flags) (ps : List Piece) (cs : List Char) : Prop :=
  ∃ body, Body ps body ∧ cs = flags.text ++ body

/-! ## Matching -/

/-- Whether the atom stands for the character `d`. -/
def Atom.Accepts (flags : Flags) (d : Char) : Atom → Prop
  | any => flags.dotAll = true ∨ d ≠ '\n'
  | letter c => if flags.ignoreCase then Text.SameLetter c d else c = d

/-- Whether the piece matches `part`, with `before` in front of it and `after` behind it. -/
def Piece.Matches (flags : Flags) (before part after : List Char) : Piece → Prop
  | once a => ∃ d, part = [d] ∧ a.Accepts flags d
  | many a => ∀ d ∈ part, a.Accepts flags d
  | start => part = [] ∧ (before = [] ∨ flags.multiLine = true ∧ before.getLast? = some '\n')
  | stop => part = [] ∧ (after = [] ∨ flags.multiLine = true ∧ after.head? = some '\n')

/-- Whether the pieces match `part` one behind the other, with `before` in front of it and `after`
behind it. -/
def Matches (flags : Flags) : List Piece → List Char → List Char → List Char → Prop
  | [], _, part, _ => part = []
  | p :: ps, before, part, after => ∃ first rest, part = first ++ rest ∧
      p.Matches flags before first (rest ++ after) ∧ Matches flags ps (before ++ first) rest after

/-- Whether the pieces match some part of the text. -/
def Found (flags : Flags) (ps : List Piece) (text : List Char) : Prop :=
  ∃ before part after, text = before ++ part ++ after ∧ Matches flags ps before part after

/-! ## Engines -/

/-- What can be relied on. -/
structure Engine.Lawful (engine : Engine) : Prop where
  /-- A character that has been escaped stands for itself. -/
  escape_spells (c : Char) :
    (Atom.letter c).Spells (engine.escape (String.singleton c)).toList
  /-- An expression that is not refused is searched for in the whole text. -/
  isMatch_iff {flags : Flags} {ps : List Piece} {expression : String} {r : engine.Compiled}
    (h : Spells flags ps expression.toList) (hr : engine.compile expression = .ok r)
    (text : String) : engine.isMatch r text = true ↔ Found flags ps text.toList

end Regex
end RecordQuery
