import RecordQuery.Regex

/-!
# Wildcard patterns

In a pattern `%` stands for any run of characters, `_` for any one character, and every other
character for itself up to case.  A pattern matches a text as a whole.

Records are searched with an engine for regular expressions.  `Like.regexText` is the expression for
a pattern: it is anchored at both ends, ignores case and lets a dot stand for a line feed as well.

`Pattern.matches` does without an engine.  It goes through the pattern from its end and keeps, for
each suffix of the text, whether the part of the pattern seen so far matches that suffix.  The work
is the product of both lengths, however many wildcards there are.
-/

set_option autoImplicit false

namespace RecordQuery
namespace Like

/-! ## Expressions -/

/-- The expression for one character of a pattern. -/
def regexPiece (escape : String → String) (c : Char) : String :=
  if c = '%' then ".*" else if c = '_' then "." else escape (String.singleton c)

/-- The expression for a pattern. -/
def regexText (escape : String → String) (pattern : String) : String :=
  "(?is)^" ++ String.join (pattern.toList.map (regexPiece escape)) ++ "$"

/-- A pattern made ready to be searched for. -/
def compile (engine : Regex.Engine) (pattern : String) : Except String engine.Compiled :=
  engine.compile (regexText engine.escape pattern)

/-! ## Wildcards -/

/-- What one character of a pattern stands for. -/
inductive Wildcard where
  /-- any run of characters -/
  | run
  /-- any one character -/
  | one
  /-- this character up to case -/
  | letter (c : Char)
deriving DecidableEq, Repr

/-- The meaning of a character of a pattern. -/
def Wildcard.ofChar (c : Char) : Wildcard :=
  if c = '%' then .run else if c = '_' then .one else .letter c

/-- What a pattern stands for, piece by piece. -/
abbrev Pattern := List Wildcard

/-- The pattern written as `s`. -/
def Pattern.ofString (s : String) : Pattern := s.toList.map Wildcard.ofChar

/-- For each position, whether `row` holds there or further on. -/
def orLater : List Bool → List Bool
  | [] => []
  | b :: row =>
    let later := orLater row
    (b || later.headD false) :: later

/-- For each suffix of `cs`, whether it starts with a character that passes `ok` and `row` holds for
what follows it; the empty suffix has none. -/
def oneThen (ok : Char → Bool) (cs : List Char) (row : List Bool) : List Bool :=
  List.zipWith (fun c b ↦ ok c && b) cs row.tail ++ [false]

/-- For each suffix of `cs`, from `cs` itself down to the empty one, whether `p` matches it. -/
def suffixMatches (cs : List Char) : Pattern → List Bool
  | [] => cs.map (fun _ ↦ false) ++ [true]
  | .run :: p => orLater (suffixMatches cs p)
  | .one :: p => oneThen (fun _ ↦ true) cs (suffixMatches cs p)
  | .letter c :: p => oneThen (fun x ↦ Text.SameLetter c x) cs (suffixMatches cs p)

/-- Whether `p` matches the whole of `text`. -/
def Pattern.matches (p : Pattern) (text : String) : Bool :=
  (suffixMatches text.toList p).headD false

end Like
end RecordQuery
