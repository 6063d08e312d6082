import RecordQuery.Like
import Mathlib.Data.List.Forall2

/-!
# What patterns match

A pattern matches a text when the text can be cut into consecutive pieces, one for each character of
the pattern, and each character stands for its piece.  That is `Like.Covers`, and with wildcards for
the characters `Pattern.Covers`.  Neither says anything of how the cuts are found: with several `%`
there are many ways to place them, and trying one after the other may take very long or miss one.

`Pattern.matches` tries none of them.  It keeps a row with one entry for each suffix of the text,
and `Describes P cs row` says that the entries tell for which suffixes of `cs` the condition `P`
holds.  One more character of the pattern, from the right, makes a row that describes one more
condition.

* `describes_orLater`, `describes_oneThen`: the two ways a row is made from the one before.
* `describes_suffixMatches`: the row of a pattern tells which suffixes the pattern covers.
* `matches_iff_covers`: matching is covering.
-/

set_option autoImplicit false

namespace RecordQuery
namespace Like

/-! ## Covering -/

/-- Whether a wildcard stands for `piece`. -/
def Wildcard.Stands : Wildcard → List Char → Prop
  | run, _ => True
  | one, piece => ∃ d, piece = [d]
  | letter c, piece => ∃ d, piece = [d] ∧ Text.SameLetter c d

/-- Whether `x` can be cut into pieces for which the wildcards of `p` stand. -/
def Pattern.Covers (p : Pattern) (x : List Char) : Prop :=
  ∃ pieces : List (List Char), pieces.flatten = x ∧ List.Forall₂ Wildcard.Stands p pieces

namespace Pattern

variable {p : Pattern} {x : List Char}

theorem covers_nil : Covers [] x ↔ x = [] := by
  constructor
  · rintro ⟨pieces, rfl, h⟩
    rw [List.forall₂_nil_left_iff.mp h, List.flatten_nil]
  · rintro rfl
    exact ⟨[], rfl, .nil⟩

/-- The first wildcard stands for a piece at the front, and the others cover the rest. -/
theorem covers_cons {w : Wildcard} :
    Covers (w :: p) x ↔ ∃ piece rest, x = piece ++ rest ∧ w.Stands piece ∧ p.Covers rest := by
  constructor
  · rintro ⟨pieces, rfl, h⟩
    obtain ⟨piece, others, hw, hp, rfl⟩ := List.forall₂_cons_left_iff.mp h
    exact ⟨piece, others.flatten, List.flatten_cons, hw, others, rfl, hp⟩
  · rintro ⟨piece, rest, rfl, hw, others, rfl, hp⟩
    exact ⟨piece :: others, List.flatten_cons, .cons hw hp⟩

/-- A run leaves any suffix to the rest of the pattern. -/
theorem covers_run : Covers (.run :: p) x ↔ ∃ y, y <:+ x ∧ p.Covers y := by
  rw [covers_cons]
  constructor
  · rintro ⟨piece, rest, rfl, -, h⟩
    exact ⟨rest, List.suffix_append piece rest, h⟩
  · rintro ⟨rest, ⟨piece, rfl⟩, h⟩
    exact ⟨piece, rest, rfl, trivial, h⟩

/-- A wildcard that stands for one character takes it from the front. -/
theorem covers_single {w : Wildcard} {ok : Char → Prop}
    (hw : ∀ piece, w.Stands piece ↔ ∃ d, piece = [d] ∧ ok d) :
    Covers (w :: p) x ↔ ∃ d y, x = d :: y ∧ ok d ∧ p.Covers y := by
  rw [covers_cons]
  constructor
  · rintro ⟨piece, rest, rfl, hpiece, h⟩
    obtain ⟨d, rfl, hd⟩ := (hw piece).mp hpiece
    exact ⟨d, rest, rfl, hd, h⟩
  · rintro ⟨d, rest, rfl, hd, h⟩
    exact ⟨[d], rest, rfl, (hw [d]).mpr ⟨d, rfl, hd⟩, h⟩

end Pattern

/-- Whether the character `c` of a pattern stands for `piece`. -/
def Stands (c : Char) (piece : List Char) : Prop :=
  if c = '%' then True
  else if c = '_' then ∃ d, piece = [d]
  else ∃ d, piece = [d] ∧ Text.SameLetter c d

/-- Whether `x` can be cut into pieces for which the characters of `p` stand. -/
def Covers (p x : List Char) : Prop :=
  ∃ pieces : List (List Char), pieces.flatten = x ∧ List.Forall₂ Stands p pieces

theorem stands_ofChar (c : Char) (piece : List Char) :
    (Wildcard.ofChar c).Stands piece ↔ Stands c piece := by
  rw [Wildcard.ofChar, Stands]
  split
  · exact Iff.rfl
  · split <;> exact Iff.rfl

theorem covers_ofString (p : String) (x : List Char) :
    (Pattern.ofString p).Covers x ↔ Covers p.toList x := by
  rw [Pattern.Covers, Pattern.ofString, Covers]
  simp only [List.forall₂_map_left_iff, stands_ofChar]

/-! ## Rows -/

/-- The entries of the row tell for each suffix of the text, the longest first, whether `P` holds of
it. -/
inductive Describes (P : List Char → Prop) : List Char → List Bool → Prop
  | nil {b : Bool} (h : b = true ↔ P []) : Describes P [] [b]
  | cons {c : Char} {cs : List Char} {b : Bool} {row : List Bool} (h : b = true ↔ P (c :: cs))
      (hs : Describes P cs row) : Describes P (c :: cs) (b :: row)

variable {P Q : List Char → Prop} {cs : List Char} {row : List Bool}

theorem Describes.congr (h : Describes P cs row) (hPQ : ∀ x, P x ↔ Q x) : Describes Q cs row := by
  induction h with
  | nil h => exact .nil (h.trans (hPQ _))
  | cons h _ ih => exact .cons (h.trans (hPQ _)) ih

/-- The first entry is about the whole text. -/
theorem Describes.headD_iff (h : Describes P cs row) : row.headD false = true ↔ P cs := by
  cases h with
  | nil h => exact h
  | cons h _ => exact h

/-- At the end of a pattern nothing may be left. -/
theorem describes_end (cs : List Char) :
    Describes (· = []) cs (cs.map (fun _ ↦ false) ++ [true]) := by
  induction cs with
  | nil => exact .nil (by simp)
  | cons c cs ih => exact .cons (by simp) ih

/-- The row for a run tells whether the row before holds at any later suffix. -/
theorem describes_orLater (h : Describes P cs row) :
    Describes (fun x ↦ ∃ y, y <:+ x ∧ P y) cs (orLater row) := by
  induction h with
  | nil h =>
    refine .nil ?_
    simp only [orLater, List.headD_nil, Bool.or_false, List.suffix_nil, exists_eq_left]
    exact h
  | @cons c cs b row h _ ih =>
    refine .cons ?_ ih
    rw [Bool.or_eq_true, h, ih.headD_iff]
    simp only [List.suffix_cons_iff, or_and_right, exists_or, exists_eq_left]

/-- The row for one character tells whether the text goes on with one that passes, and the row
before holds behind it. -/
theorem describes_oneThen (ok : Char → Bool) (h : Describes P cs row) :
    Describes (fun x ↦ ∃ d y, x = d :: y ∧ ok d = true ∧ P y) cs (oneThen ok cs row) := by
  induction h with
  | nil h => exact .nil (by simp)
  | @cons c cs b row h hs ih =>
    cases hs with
    | nil hlast =>
      refine .cons ?_ ih
      simp [hlast]
    | cons hnext hs =>
      refine .cons ?_ ih
      simp [hnext]

/-! ## Matching -/

/-- The row of a pattern tells which suffixes the pattern covers. -/
theorem describes_suffixMatches (cs : List Char) (p : Pattern) :
    Describes p.Covers cs (suffixMatches cs p) := by
  induction p with
  | nil => exact (describes_end cs).congr fun x ↦ Pattern.covers_nil.symm
  | cons w p ih =>
    cases w with
    | run => exact (describes_orLater ih).congr fun x ↦ Pattern.covers_run.symm
    | one =>
      refine (describes_oneThen (fun _ ↦ true) ih).congr fun x ↦ Iff.symm ?_
      exact Pattern.covers_single fun piece ↦ by simp [Wildcard.Stands]
    | letter c =>
      refine (describes_oneThen (fun d ↦ Text.SameLetter c d) ih).congr fun x ↦ Iff.symm ?_
      exact Pattern.covers_single fun piece ↦ by simp [Wildcard.Stands]

/-- **Matching is covering**: a pattern matches the texts that can be cut into pieces for its
wildcards, however many ways there are to cut. -/
theorem matches_iff_covers (p : Pattern) (text : String) :
    p.matches text = true ↔ p.Covers text.toList :=
  (describes_suffixMatches text.toList p).headD_iff

instance (p x : List Char) : Decidable (Covers p x) :=
  decidable_of_iff (((Pattern.ofString (.ofList p)).matches (.ofList x)) = true) <| by
    rw [matches_iff_covers, covers_ofString, String.toList_ofList, String.toList_ofList]

end Like
end RecordQuery
