import RecordQuery.Like

/-!
# A small engine

`Regex.Engine.bounded` is an engine for expressions that are anchored at both ends and ignore case,
with dots, runs of dots and letters between the anchors.  It reads them as wildcard patterns and
refuses all others.  It also refuses an expression that would take up more than a given number of
bytes, as engines do to protect themselves.
-/

set_option autoImplicit false

namespace RecordQuery
namespace Regex

/-! ## Reading expressions -/

/-- The atom at the front, and the rest. -/
def atom? : List Char → Option (Atom × List Char)
  | [] => none
  | '.' :: cs => some (.any, cs)
  | '\\' :: c :: cs => if isMeta c then some (.letter c, cs) else none
  | c :: cs => if isMeta c then none else some (.letter c, cs)

/-- The piece at the front, and the rest. -/
def piece? : List Char → Option (Piece × List Char)
  | '^' :: cs => some (.start, cs)
  | '$' :: cs => some (.stop, cs)
  | cs =>
    match atom? cs with
    | none => none
    | some (a, '*' :: rest) => some (.many a, rest)
    | some (a, rest) => some (.once a, rest)

theorem length_of_atom? {cs rest : List Char} {a : Atom} (h : atom? cs = some (a, rest)) :
    rest.length < cs.length := by
  unfold atom? at h
  split at h
  · cases h
  · cases h
    exact Nat.lt_succ_self _
  · split at h <;> cases h
    exact Nat.lt_succ_of_lt (Nat.lt_succ_self _)
  · split at h <;> cases h
    exact Nat.lt_succ_self _

theorem length_of_piece? {cs rest : List Char} {p : Piece} (h : piece? cs = some (p, rest)) :
    rest.length < cs.length := by
  unfold piece? at h
  split at h
  · cases h
    exact Nat.lt_succ_self _
  · cases h
    exact Nat.lt_succ_self _
  · split at h
    · cases h
    · rename_i ha
      cases h
      exact Nat.lt_of_succ_lt (length_of_atom? ha)
    · rename_i ha
      cases h
      exact length_of_atom? ha

/-- The pieces of an expression behind its flags. -/
def pieces? (cs : List Char) : Option (List Piece) :=
  match cs with
  | [] => some []
  | c :: cs =>
    match h : piece? (c :: cs) with
    | none => none
    | some (p, rest) =>
      have := length_of_piece? h
      (pieces? rest).map (p :: ·)
termination_by cs.length
decreasing_by exact this

/-- The wildcards that stand between the anchors, given the pieces behind the first anchor. -/
def wildcards? : List Piece → Option Like.Pattern
  | [.stop] => some []
  | .many .any :: ps => (wildcards? ps).map (.run :: ·)
  | .once .any :: ps => (wildcards? ps).map (.one :: ·)
  | .once (.letter c) :: ps => (wildcards? ps).map (.letter c :: ·)
  | _ => none

/-- The pattern that an anchored expression is. -/
def anchored? (expression : String) : Option Like.Pattern :=
  match expression.toList with
  | '(' :: '?' :: 'i' :: 's' :: ')' :: '^' :: body => (pieces? body).bind wildcards?
  | _ => none

/-! ## The engine -/

/-- The number of bytes that a wildcard is taken to need. -/
def wildcardSize : Nat := 128

/-- What an engine says that accepts up to `limit` bytes. -/
def tooBig (limit : Nat) : String :=
  "Compiled regex exceeds size limit of " ++ toString limit ++ " bytes."

/-- The pattern that an expression is, if the pattern needs no more than `limit` bytes. -/
def readWithin (limit : Nat) (expression : String) : Except String Like.Pattern :=
  match anchored? expression with
  | none => .error "unsupported expression"
  | some p => if limit < wildcardSize * p.length then .error (tooBig limit) else .ok p

/-- The engine that accepts up to `limit` bytes. -/
def Engine.bounded (limit : Nat) : Engine where
  Compiled := Like.Pattern
  escape text := .ofList (text.toList.flatMap fun c ↦ if isMeta c then ['\\', c] else [c])
  compile := readWithin limit
  isMatch := Like.Pattern.matches

/-- The engine that accepts up to ten mebibytes. -/
abbrev Engine.builtIn : Engine := .bounded 0xA00000

end Regex
end RecordQuery
