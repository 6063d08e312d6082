import RecordQuery.Proofs.Selection
import RecordQuery.Text.Alphabetic

/-!
# What `LIKE` asks of a string

A comparison with `LIKE` is a pattern when its literal is written.  It goes through all the stages
of a query and is searched for as a regular expression before a stored string meets it.  It asks
what the pattern says: that the string can be cut into pieces, one for each character of the
pattern.

Two characters of a pattern are wildcards, and every other one stands for itself up to case.  Only
letters have another case.  So whatever is not a letter stands for itself alone, be it a digit, a
blank or punctuation that means something elsewhere.

* `Text.foldCase_cases`: a character folds to itself, or it is a letter and folds to a letter.
* `Text.sameLetter_iff_eq`: what is not a letter is like no other character.
* `Like.stands_iff_eq`: and stands for itself alone in a pattern.
* `like_accepts_iff`: a comparison with `LIKE` cuts the stored string into pieces.
-/

set_option autoImplicit false

namespace RecordQuery

/-! ## Characters without case -/

namespace Text

/-- Whether all code points from `first` to `last` lie in one of the ranges. -/
def Ranges.covers (rs : Ranges) (first last : Nat) : Bool :=
  -- the comparisons are made on whole tables below, where `Nat.ble` is computed with at once
  rs.any fun r ↦ Nat.ble r.1 first && Nat.ble last r.2

theorem Ranges.exists_of_covers {rs : Ranges} {first last : Nat} (h : rs.covers first last = true) :
    ∃ r ∈ rs, r.1 ≤ first ∧ last ≤ r.2 := by
  obtain ⟨r, hr, hcovers⟩ := List.any_eq_true.mp h
  rw [Bool.and_eq_true, Nat.ble_eq, Nat.ble_eq] at hcovers
  exact ⟨r, hr, hcovers⟩

theorem Ranges.contains_of_mem {rs : Ranges} {r : Nat × Nat} {n : Nat} (hr : r ∈ rs)
    (hfirst : r.1 ≤ n) (hlast : n ≤ r.2) : rs.contains n = true := by
  refine List.any_eq_true.mpr ⟨r, hr, ?_⟩
  rw [Bool.and_eq_true, decide_eq_true_iff, decide_eq_true_iff]
  exact ⟨hfirst, hlast⟩

/-- Whether the characters of a row lie in the ranges.  Most rows lie in one range; a row may also
step over gaps between them. -/
def FoldRange.liesIn (r : FoldRange) (rs : Ranges) : Bool :=
  rs.covers r.first r.last ||
    (List.range (r.last - r.first + 1)).all fun i ↦
      i % r.step != 0 || rs.covers (r.first + i) (r.first + i)

theorem FoldRange.contains_of_liesIn {r : FoldRange} {rs : Ranges} (h : r.liesIn rs = true)
    {n : Nat} (hfirst : r.first ≤ n) (hlast : n ≤ r.last) (hstep : (n - r.first) % r.step = 0) :
    rs.contains n = true := by
  rcases Bool.or_eq_true_iff.mp h with hrow | hpoints
  · obtain ⟨s, hs, hsfirst, hslast⟩ := Ranges.exists_of_covers hrow
    exact Ranges.contains_of_mem hs (hsfirst.trans hfirst) (hlast.trans hslast)
  · have hmem : n - r.first ∈ List.range (r.last - r.first + 1) := by
      rw [List.mem_range]
      omega
    have hpoint := List.all_eq_true.mp hpoints _ hmem
    rw [hstep, bne_self_eq_false, Bool.false_or, Nat.add_sub_cancel' hfirst] at hpoint
    obtain ⟨s, hs, hsfirst, hslast⟩ := Ranges.exists_of_covers hpoint
    exact Ranges.contains_of_mem hs hsfirst hslast

/-- What is folded beyond ASCII is a letter. -/
theorem liesIn_alphabeticRanges : (foldRanges.all fun r ↦ r.liesIn alphabeticRanges) = true := by
  decide +kernel

/-- The letters from U+0080 on, and the lower-case letters below. -/
def lowerRanges : Ranges := (0x61, 0x7A) :: alphabeticRanges

/-- What is folded beyond ASCII is folded to a letter, perhaps in ASCII. -/
theorem covers_lowerRanges : (foldRanges.all fun r ↦
    lowerRanges.covers r.target (r.target + (r.last - r.first))) = true := by
  decide +kernel

theorem le_of_mem_alphabeticRanges : ∀ r ∈ alphabeticRanges, 0x80 ≤ r.1 := by
  decide +kernel

theorem isAlphabetic_of_mem_lowerRanges {c : Char} {r : Nat × Nat} (hr : r ∈ lowerRanges)
    (hfirst : r.1 ≤ c.toNat) (hlast : c.toNat ≤ r.2) : isAlphabetic c = true := by
  rcases List.mem_cons.mp hr with rfl | hr
  · have hpoints : ∀ n < 0x80, 0x61 ≤ n → n ≤ 0x7A → isAlphabetic (Char.ofNat n) = true := by
      decide +kernel
    have hlt : c.toNat < 0x80 := Nat.lt_of_le_of_lt hlast (by decide)
    rw [← Char.ofNat_toNat c]
    exact hpoints _ hlt hfirst hlast
  · have hge : ¬ c.toNat < 0x80 := by
      have hpoint := le_of_mem_alphabeticRanges r hr
      omega
    rw [isAlphabetic, if_neg hge]
    exact Ranges.contains_of_mem hr hfirst hlast

/-- A character folds to itself, or it is a letter and folds to a letter. -/
theorem foldCase_cases (c : Char) : foldCase c = c.toNat ∨
    isAlphabetic c = true ∧ ∀ d : Char, d.toNat = foldCase c → isAlphabetic d = true := by
  by_cases hascii : c.toNat < 0x80
  · have hpoints : ∀ n < 0x80, (Char.ofNat n).toLower = Char.ofNat n ∨
        isAlphabetic (Char.ofNat n) = true ∧ isAlphabetic (Char.ofNat n).toLower = true := by
      decide +kernel
    have hc := hpoints _ hascii
    rw [Char.ofNat_toNat] at hc
    rw [foldCase_eq_toLower hascii]
    refine hc.imp (congrArg Char.toNat) (And.imp_right fun hlower d hd ↦ ?_)
    rwa [Char.toNat_inj.mp hd]
  · rw [foldCase, if_neg hascii]
    cases hrow : foldRanges.findSome? (·.fold? c.toNat) with
    | none => exact .inl rfl
    | some n =>
      obtain ⟨r, hr, hfold⟩ := List.exists_of_findSome?_eq_some hrow
      rw [FoldRange.fold?] at hfold
      split at hfold
      · rename_i hn
        obtain ⟨hfirst, hlast, hstep⟩ := hn
        cases hfold
        right
        constructor
        · rw [isAlphabetic, if_neg hascii]
          have hlies := List.all_eq_true.mp liesIn_alphabeticRanges r hr
          exact FoldRange.contains_of_liesIn hlies hfirst hlast hstep
        · intro d hd
          have htarget := List.all_eq_true.mp covers_lowerRanges r hr
          obtain ⟨s, hs, hsfirst, hslast⟩ := Ranges.exists_of_covers htarget
          rw [Option.getD_some] at hd
          exact isAlphabetic_of_mem_lowerRanges hs (by omega) (by omega)
      · cases hfold

/-- What is not a letter is like no other character. -/
theorem sameLetter_iff_eq {c : Char} (h : isAlphabetic c = false) {d : Char} :
    SameLetter c d ↔ d = c := by
  have hself : foldCase c = c.toNat := by
    refine (foldCase_cases c).resolve_right fun hletter ↦ ?_
    rw [h] at hletter
    exact Bool.false_ne_true hletter.1
  rw [SameLetter, hself]
  constructor
  · intro hd
    rcases foldCase_cases d with hfold | ⟨-, hletter⟩
    · exact Char.toNat_inj.mp (hfold.symm.trans hd.symm)
    · rw [hletter c hd] at h
      cases h
  · rintro rfl
    exact hself.symm

end Text

/-- What is neither a letter nor a wildcard stands for itself alone. -/
theorem Like.stands_iff_eq {c : Char} (hletter : Text.isAlphabetic c = false) (hrun : c ≠ '%')
    (hone : c ≠ '_') {piece : List Char} : Stands c piece ↔ piece = [c] := by
  rw [Stands, if_neg hrun, if_neg hone]
  simp only [Text.sameLetter_iff_eq hletter, exists_eq_right]

/-! ## The comparison -/

theorem Expr.refusal?_like (engine : Regex.Engine) (path : FieldPath) (pattern : String) :
    (comparison path .like (.string pattern)).refusal? engine = Like.refusal? engine pattern :=
  List.findSome?_singleton

/-- **`LIKE` cuts the string into pieces**: a comparison with `LIKE` is a query, and unless the
engine refuses the expression for the pattern, a stored string passes exactly when it can be cut
into consecutive pieces, one for each character of the pattern.  A character that is neither a
letter nor a wildcard stands for itself alone. -/
theorem like_accepts_iff {engine : Regex.Engine} (hengine : engine.Lawful) (path : FieldPath)
    (pattern : String) :
    ∃ q, (Expr.comparison path .like (.string pattern)).prepare.result = .ok q ∧
      (match engine.compile (Like.regexText engine.escape pattern) with
        | .error reason => q.selector engine = .error (.pattern reason)
        | .ok _ => ∃ s, q.selector engine = .ok s ∧
            ∀ (text : String) (record : Json),
              record.lookup? path.segments = some (.string text) →
                (s.accepts record = true ↔
                  ∃ pieces : List (List Char), pieces.flatten = text.toList ∧
                    List.Forall₂ Like.Stands pattern.toList pieces)) ∧
      ∀ c, Text.isAlphabetic c = false → c ≠ '%' → c ≠ '_' →
        ∀ piece, Like.Stands c piece ↔ piece = [c] := by
  obtain ⟨q, hprepare, -⟩ :=
    Expr.prepare_of_bind (e := .comparison path .like (.string pattern)) rfl
  refine ⟨q, hprepare, ?_, fun c hletter hrun hone piece ↦ Like.stands_iff_eq hletter hrun hone⟩
  have hrefusal := Expr.refusal?_like engine path pattern
  rw [Like.refusal?, Like.compile] at hrefusal
  cases hcompile : engine.compile (Like.regexText engine.escape pattern) with
  | error reason =>
    rw [hcompile] at hrefusal
    exact selector_of_refused hprepare hrefusal
  | ok r =>
    rw [hcompile] at hrefusal
    obtain ⟨s, hs, haccepts⟩ := exists_selector_of_prepare hprepare hrefusal
    refine ⟨s, hs, fun text record hlookup ↦ ?_⟩
    rw [haccepts, Expr.selects_finds_iff hengine hrefusal]
    constructor
    · rintro ⟨found, hfound, hsatisfies⟩
      cases (Json.lookup?_eq_some_iff.mpr hfound).symm.trans hlookup
      exact hsatisfies
    · intro hcovers
      exact ⟨_, Json.lookup?_eq_some_iff.mp hlookup, hcovers⟩

/-- The long s is an `s`, the line feed is one character, and the dot stands for a dot. -/
theorem like_accepts_long_s : Regex.Engine.builtIn.Lawful ∧ ∃ q s,
    (Expr.comparison ⟨["name"], by decide, by decide⟩ .like (.string "S_%.*^")).prepare.result =
        .ok q ∧
      q.selector .builtIn = .ok s ∧
      s.accepts (sampleRecord "ſ\nab.*^") = true ∧
      s.accepts (sampleRecord "ſ\nab-*^") = false := by
  have hengine : Regex.Engine.builtIn.Lawful := Regex.bounded_lawful _
  obtain ⟨q, hprepare, hcut, -⟩ :=
    like_accepts_iff hengine ⟨["name"], by decide, by decide⟩ "S_%.*^"
  have hcompile : Like.compile .builtIn "S_%.*^" = .ok (.ofString "S_%.*^") :=
    Like.compile_bounded _ _
  rw [Like.compile] at hcompile
  rw [hcompile] at hcut
  obtain ⟨s, hs, hcut⟩ := hcut
  refine ⟨hengine, q, s, hprepare, hs, (hcut _ (sampleRecord "ſ\nab.*^") rfl).mpr ?_, ?_⟩
  · show Like.Covers "S_%.*^".toList "ſ\nab.*^".toList
    decide +kernel
  · refine Bool.eq_false_iff.mpr fun haccepts ↦ ?_
    have hcovers : Like.Covers "S_%.*^".toList "ſ\nab-*^".toList :=
      (hcut _ (sampleRecord "ſ\nab-*^") rfl).mp haccepts
    revert hcovers
    decide +kernel

end RecordQuery
