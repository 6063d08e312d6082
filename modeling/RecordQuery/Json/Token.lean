import RecordQuery.Json.Numeral
import RecordQuery.Json.Quoted

/-!
# Tokens of a JSON text

A JSON text is split into marks, words, numbers and strings before its nesting is looked at.
`Json.Token.ofText?` does so and refuses a text with anything else in it.
-/

set_option autoImplicit false

namespace RecordQuery
namespace Json

/-- A token of a JSON text. -/
inductive Token where
  | openArray
  | closeArray
  | openObject
  | closeObject
  | colon
  | comma
  /-- a value without parts -/
  | scalar (value : Json)
  /-- a string, which is a value or the name of a member -/
  | string (text : String)
deriving Repr, Inhabited

namespace Token

/-- Whether `c` may stand between tokens. -/
def isSpace (c : Char) : Bool := c = ' ' || c = '\t' || c = '\n' || c = '\r'

/-- The rest behind `word`, if it stands at the front. -/
def strip? : List Char → List Char → Option (List Char)
  | [], cs => some cs
  | _ :: _, [] => none
  | w :: word, c :: cs => if w = c then strip? word cs else none

/-- The token whose first character is `c`, and the rest. -/
def scan (c : Char) (cs : List Char) : Option (Token × List Char) :=
  match c with
  | '[' => some (.openArray, cs)
  | ']' => some (.closeArray, cs)
  | '\x7b' => some (.openObject, cs)
  | '\x7d' => some (.closeObject, cs)
  | ':' => some (.colon, cs)
  | ',' => some (.comma, cs)
  | 'n' => (strip? ['u', 'l', 'l'] cs).map fun rest ↦ (.scalar .null, rest)
  | 't' => (strip? ['r', 'u', 'e'] cs).map fun rest ↦ (.scalar (.bool true), rest)
  | 'f' => (strip? ['a', 'l', 's', 'e'] cs).map fun rest ↦ (.scalar (.bool false), rest)
  | '"' => (Quoted.decode cs).map fun r ↦ (.string (String.ofList r.1), r.2)
  | c =>
    match Numeral.scan (c :: cs) with
    | none => none
    | some (numeral, rest) => numeral.toNumber?.map fun n ↦ (.scalar (.number n), rest)

theorem length_of_strip? {word cs rest : List Char} (h : strip? word cs = some rest) :
    rest.length ≤ cs.length := by
  induction word generalizing cs with
  | nil => cases h; exact Nat.le_refl _
  | cons w word ih =>
    cases cs with
    | nil => cases h
    | cons c cs =>
      simp only [strip?] at h
      split at h
      · exact Nat.le_succ_of_le (ih h)
      · cases h

theorem length_of_scan {c : Char} {cs rest : List Char} {t : Token}
    (h : scan c cs = some (t, rest)) : rest.length ≤ cs.length := by
  unfold scan at h
  split at h
  case h_7 | h_8 | h_9 =>
    obtain ⟨r, hr, he⟩ := Option.map_eq_some_iff.mp h
    cases he
    exact length_of_strip? hr
  case h_10 =>
    obtain ⟨r, hr, he⟩ := Option.map_eq_some_iff.mp h
    cases he
    exact Nat.le_of_lt (Quoted.length_of_decode hr)
  case h_11 =>
    split at h
    · cases h
    · rename_i hn
      obtain ⟨r, hr, he⟩ := Option.map_eq_some_iff.mp h
      cases he
      exact Nat.le_of_lt_succ (Numeral.length_of_scan hn)
  all_goals cases h; exact Nat.le_refl _

/-- The tokens of `cs`. -/
def ofChars? (cs : List Char) : Option (List Token) :=
  match hd : cs.dropWhile isSpace with
  | [] => some []
  | c :: rest =>
    match h : scan c rest with
    | none => none
    | some (t, rest') =>
      have : rest'.length < cs.length := by
        have h1 := length_of_scan h
        have h2 := (List.dropWhile_suffix (l := cs) isSpace).length_le
        rw [hd, List.length_cons] at h2
        omega
      (ofChars? rest').map (t :: ·)
termination_by cs.length

/-- The tokens of a text. -/
def ofText? (text : String) : Option (List Token) := ofChars? text.toList

end Token
end Json
end RecordQuery
