import RecordQuery.Sql.Clause

/-!
# Reading SQL conditions

A clause is text, and what it means is what a database makes of that text.  This file reads a
condition the way SQL does, and knows nothing of how clauses are written: names stand in double
quotes and texts in single quotes, a quote inside either one written twice; everything else is
words, runs of operator characters, parameters and marks; `and` binds tighter than `or`, both group
to the left, and parentheses override.

Parameters are numbered from one.  `$n` says its number, and the `n`-th `?` of a text has the number
`n`.

* `Token.ofChars?`: the tokens of a text.
* `Token.number`: the tokens with all their parameters numbered.
* `Reading.step`: what one more token makes of the part of a condition that has been read.
* `read?`: the condition that a text is, as a `Sql.Tree`.
-/

set_option autoImplicit false

namespace RecordQuery
namespace Sql

/-! ## Tokens -/

/-- A token of SQL. -/
inductive Token where
  /-- a name in double quotes -/
  | name (s : String)
  /-- a text in single quotes -/
  | text (s : String)
  /-- a keyword or the name of a function -/
  | word (s : String)
  | operator (s : String)
  /-- `?` without a number, or `$n` with one -/
  | parameter (number? : Option Nat)
  | opening
  | closing
  | comma
deriving DecidableEq, Repr

/-- What stands between two of `quote`, and what follows, behind the first one.  A quote written
twice is one quote of the text. -/
def unquote (quote : Char) : List Char → Option (List Char × List Char)
  | [] => none
  | c :: cs =>
    if c = quote then
      match cs with
      | [] => some ([], [])
      | d :: ds =>
        if d = quote then (unquote quote ds).map fun r ↦ (quote :: r.1, r.2)
        else some ([], d :: ds)
    else (unquote quote cs).map fun r ↦ (c :: r.1, r.2)

theorem length_of_unquote {quote : Char} {cs s rest : List Char}
    (h : unquote quote cs = some (s, rest)) : rest.length ≤ cs.length := by
  fun_induction unquote quote cs generalizing s with
  | case1 => cases h
  | case2 => cases h; exact Nat.zero_le _
  | case3 ds ih =>
    obtain ⟨r, hr, he⟩ := Option.map_eq_some_iff.mp h
    cases he
    have := ih hr
    simp only [List.length_cons]
    omega
  | case4 => cases h; exact Nat.le_succ _
  | case5 c cs _ ih =>
    obtain ⟨r, hr, he⟩ := Option.map_eq_some_iff.mp h
    cases he
    exact Nat.le_succ_of_le (ih hr)

namespace Token

/-- Whether `c` belongs to an operator. -/
def isOperatorChar (c : Char) : Bool := c = '<' || c = '>' || c = '=' || c = '!' || c = '-'

/-- Whether `c` belongs to a word. -/
def isWordChar (c : Char) : Bool := c.isAlphanum || c = '_'

/-- The token whose first character is `c`, and the rest. -/
def scan (c : Char) (cs : List Char) : Option (Token × List Char) :=
  match c with
  | '(' => some (.opening, cs)
  | ')' => some (.closing, cs)
  | ',' => some (.comma, cs)
  | '?' => some (.parameter none, cs)
  | '"' => (unquote '"' cs).map fun r ↦ (.name (String.ofList r.1), r.2)
  | '\'' => (unquote '\'' cs).map fun r ↦ (.text (String.ofList r.1), r.2)
  | '$' =>
    if cs.takeWhile Char.isDigit = [] then none
    else some (.parameter (some (Nat.ofDigitChars 10 (cs.takeWhile Char.isDigit) 0)),
      cs.dropWhile Char.isDigit)
  | c =>
    if isOperatorChar c then
      some (.operator (String.ofList (c :: cs.takeWhile isOperatorChar)),
        cs.dropWhile isOperatorChar)
    else if isWordChar c then
      some (.word (String.ofList (c :: cs.takeWhile isWordChar)), cs.dropWhile isWordChar)
    else none

theorem length_of_scan {c : Char} {cs rest : List Char} {t : Token}
    (h : scan c cs = some (t, rest)) : rest.length ≤ cs.length := by
  unfold scan at h
  split at h
  case h_5 | h_6 =>
    obtain ⟨r, hr, he⟩ := Option.map_eq_some_iff.mp h
    cases he
    exact length_of_unquote hr
  case h_7 =>
    split at h
    · cases h
    · cases h; exact (List.dropWhile_suffix _).length_le
  case h_8 =>
    split at h
    · cases h; exact (List.dropWhile_suffix _).length_le
    · split at h
      · cases h; exact (List.dropWhile_suffix _).length_le
      · cases h
  all_goals cases h; exact Nat.le_refl _

/-- The tokens of `cs`. -/
def ofChars? : List Char → Option (List Token)
  | [] => some []
  | c :: cs =>
    if c.isWhitespace then ofChars? cs
    else
      match h : scan c cs with
      | none => none
      | some (t, rest) =>
        have := length_of_scan h
        (ofChars? rest).map (t :: ·)
termination_by cs => cs.length

/-- The tokens with numbers for their parameters: those that have none are numbered from left to
right, behind `seen` earlier ones. -/
def number (seen : Nat) : List Token → List Token
  | [] => []
  | .parameter none :: ts => .parameter (some (seen + 1)) :: number (seen + 1) ts
  | t :: ts => t :: number seen ts

/-- The comparator a token stands for. -/
def comparator? : Token → Option Comparator
  | operator "=" => some .equal
  | operator "!=" => some .notEqual
  | operator "<" => some .lessThan
  | operator "<=" => some .lessEqual
  | operator ">" => some .greaterThan
  | operator ">=" => some .greaterEqual
  | word "like" => some .like
  | _ => none

end Token

/-! ## Conditions -/

/-- How a step into a JSON column is taken. -/
inductive Arrow where
  /-- `->`, to a JSON value -/
  | value
  /-- `->>`, to a value as text -/
  | text
deriving DecidableEq, Repr

/-- What a condition compares. -/
inductive Reference where
  /-- a column, and the steps into it -/
  | column (name : String) (steps : List (Arrow × String))
  /-- what a JSON path leads to in a column -/
  | extract (name : String) (path : String)
deriving DecidableEq, Repr

/-- A condition that has been read; parentheses are gone. -/
inductive Tree where
  | comparison (reference : Reference) (op : Comparator) (parameter : Nat)
  | logical (connective : Connective) (left right : Tree)
deriving DecidableEq, Repr

/-- The left operands of the connectives that wait between two parentheses, the `or` and behind it
the `and`. -/
structure Level where
  disjunct : Option Tree
  conjunct : Option Tree
deriving DecidableEq, Repr

namespace Level

/-- No connective waits. -/
def empty : Level := ⟨none, none⟩

/-- `t` as the right operand of the `and`. -/
def conjoin (l : Level) (t : Tree) : Tree :=
  match l.conjunct with
  | none => t
  | some left => .logical .and left t

/-- `t` as the right operand of both connectives. -/
def close (l : Level) (t : Tree) : Tree :=
  match l.disjunct with
  | none => l.conjoin t
  | some left => .logical .or left (l.conjoin t)

/-- The level behind `t` and one more connective. -/
def push (l : Level) (t : Tree) : Connective → Level
  | .and => { l with conjunct := some (l.conjoin t) }
  | .or => ⟨some (l.close t), none⟩

end Level

/-- What the next token may be. -/
inductive Awaiting where
  /-- a reference or an opening parenthesis -/
  | operand
  /-- the parenthesis of `json_extract` -/
  | arguments
  /-- the column of `json_extract` -/
  | extracted
  /-- the comma behind that -/
  | comma (name : String)
  /-- the path of `json_extract` -/
  | path (name : String)
  /-- the end of `json_extract` -/
  | argumentsEnd (name path : String)
  /-- an arrow or a comparator behind a column -/
  | arrow (name : String) (steps : List (Arrow × String))
  /-- the key behind an arrow -/
  | key (name : String) (steps : List (Arrow × String)) (arrow : Arrow)
  /-- the comparator behind a reference -/
  | comparator (reference : Reference)
  /-- the parameter behind a comparator -/
  | parameter (reference : Reference) (op : Comparator)
  /-- a connective, a closing parenthesis or the end -/
  | connective (operand : Tree)
deriving DecidableEq, Repr

/-- The part of a condition that has been read. -/
structure Reading where
  awaiting : Awaiting
  /-- the connectives since the innermost open parenthesis -/
  level : Level
  /-- the connectives before each open parenthesis, the innermost first -/
  enclosing : List Level
deriving DecidableEq, Repr

namespace Reading

/-- Nothing has been read. -/
def initial : Reading := ⟨.operand, .empty, []⟩

/-- What `t` makes of the part read so far, if it fits. -/
def step (r : Reading) (t : Token) : Option Reading :=
  match r.awaiting, t with
  | .operand, .opening => some ⟨.operand, .empty, r.level :: r.enclosing⟩
  | .operand, .name s => some { r with awaiting := .arrow s [] }
  | .operand, .word "json_extract" => some { r with awaiting := .arguments }
  | .arguments, .opening => some { r with awaiting := .extracted }
  | .extracted, .name s => some { r with awaiting := .comma s }
  | .comma s, .comma => some { r with awaiting := .path s }
  | .path s, .text path => some { r with awaiting := .argumentsEnd s path }
  | .argumentsEnd s path, .closing => some { r with awaiting := .comparator (.extract s path) }
  | .arrow s steps, .operator "->" => some { r with awaiting := .key s steps .value }
  | .arrow s steps, .operator "->>" => some { r with awaiting := .key s steps .text }
  | .arrow s steps, t =>
    t.comparator?.map fun op ↦ { r with awaiting := .parameter (.column s steps) op }
  | .key s steps arrow, .text key => some { r with awaiting := .arrow s (steps ++ [(arrow, key)]) }
  | .comparator reference, t =>
    t.comparator?.map fun op ↦ { r with awaiting := .parameter reference op }
  | .parameter reference op, .parameter (some n) =>
    some { r with awaiting := .connective (.comparison reference op n) }
  | .connective operand, .word "and" =>
    some { r with awaiting := .operand, level := r.level.push operand .and }
  | .connective operand, .word "or" =>
    some { r with awaiting := .operand, level := r.level.push operand .or }
  | .connective operand, .closing =>
    match r.enclosing with
    | [] => none
    | outer :: enclosing => some ⟨.connective (r.level.close operand), outer, enclosing⟩
  | _, _ => none

/-- The condition, when all of it has been read. -/
def tree? (r : Reading) : Option Tree :=
  match r.awaiting, r.enclosing with
  | .connective operand, [] => some (r.level.close operand)
  | _, _ => none

end Reading

/-- The condition that a text is. -/
def read? (sql : String) : Option Tree := do
  let tokens ← Token.ofChars? sql.toList
  let reading ← (Token.number 0 tokens).foldlM Reading.step .initial
  reading.tree?

end Sql
end RecordQuery
