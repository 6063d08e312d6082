import RecordQuery.Proofs.Wildcards
import RecordQuery.Regex.Bounded
import Mathlib.Data.String.Basic

/-!
# Searching for a pattern

Records are not searched with `Like.Pattern.matches` but by an engine, for the expression that
`Like.regexText` writes.  An engine looks for a part that matches anywhere in a text and knows
nothing of wildcards.  That it finds the same rests on how the expression is written.

* *The anchors.*  They hold at the ends of the text alone, as no flag lets them hold at line feeds.
  So the part that matches is the whole text (`found_iff_covers`).
* *The dots.*  They stand for every character, as a flag lets them stand for line feeds too.
* *The letters.*  A character that means something in expressions is escaped, and then it stands
  for itself (`spells_regexText`).

`isMatch_eq_matches` puts these together, and `bounded_lawful` says that the small engine can be
relied on.
-/

set_option autoImplicit false

namespace RecordQuery
namespace Like

open Regex

/-! ## The pieces of a pattern -/

/-- The flags of a pattern. -/
def flags : Flags := ⟨true, false, true⟩

/-- What stands in an expression for a wildcard. -/
def Wildcard.piece : Wildcard → Piece
  | run => .many .any
  | one => .once .any
  | letter c => .once (.letter c)

/-- The pieces behind the first anchor. -/
def Pattern.tail (p : Pattern) : List Piece := p.map Wildcard.piece ++ [.stop]

variable {before part after : List Char}

/-- A wildcard and its piece stand for the same. -/
theorem Wildcard.matches_piece_iff (w : Wildcard) :
    w.piece.Matches flags before part after ↔ w.Stands part := by
  cases w with
  | run => exact ⟨fun _ ↦ trivial, fun _ _ _ ↦ .inl rfl⟩
  | one => simp [piece, Piece.Matches, Atom.Accepts, Stands, flags]
  | letter c => simp [piece, Piece.Matches, Atom.Accepts, Stands, flags]

/-- What matches ends at the last anchor, which is the end of the text. -/
theorem Pattern.matches_tail_iff {p : Pattern} :
    Matches flags p.tail before part after ↔ after = [] ∧ p.Covers part := by
  induction p generalizing before part with
  | nil =>
    rw [covers_nil]
    constructor
    · rintro ⟨first, rest, rfl, ⟨rfl, hend⟩, rfl⟩
      refine ⟨hend.resolve_right fun h ↦ ?_, rfl⟩
      exact absurd h.1 (by decide)
    · rintro ⟨rfl, rfl⟩
      exact ⟨[], [], rfl, ⟨rfl, .inl rfl⟩, rfl⟩
  | cons w p ih =>
    rw [covers_cons]
    constructor
    · rintro ⟨first, rest, rfl, hfirst, hrest⟩
      obtain ⟨rfl, hcovers⟩ := ih.mp hrest
      exact ⟨rfl, first, rest, rfl, w.matches_piece_iff.mp hfirst, hcovers⟩
    · rintro ⟨rfl, first, rest, rfl, hfirst, hcovers⟩
      exact ⟨first, rest, rfl, w.matches_piece_iff.mpr hfirst, ih.mpr ⟨rfl, hcovers⟩⟩

/-- Between the anchors a part of the text is all of it. -/
theorem Pattern.found_iff_covers {p : Pattern} {x : List Char} :
    Found flags (.start :: p.tail) x ↔ p.Covers x := by
  constructor
  · rintro ⟨before, part, after, rfl, first, rest, rfl, ⟨rfl, hstart⟩, hrest⟩
    have hbefore : before = [] := hstart.resolve_right fun h ↦ absurd h.1 (by decide)
    obtain ⟨rfl, hcovers⟩ := matches_tail_iff.mp hrest
    rwa [hbefore, List.nil_append, List.nil_append, List.append_nil]
  · intro hcovers
    refine ⟨[], x, [], (List.append_nil x).symm, [], x, rfl, ⟨rfl, .inl rfl⟩, ?_⟩
    exact matches_tail_iff.mpr ⟨rfl, hcovers⟩

/-! ## The expression of a pattern -/

section

variable {escape : String → String}

theorem spells_regexPiece (h : ∀ c, (Atom.letter c).Spells (escape (.singleton c)).toList)
    (c : Char) : (Wildcard.ofChar c).piece.Spells (regexPiece escape c).toList := by
  rw [Wildcard.ofChar, regexPiece]
  split
  · exact .many .any
  · split
    · exact .once .any
    · exact .once (h c)

/-- The expression for a pattern is written as its pieces are. -/
theorem spells_regexText (h : ∀ c, (Atom.letter c).Spells (escape (.singleton c)).toList)
    (p : String) :
    Spells flags (.start :: (Pattern.ofString p).tail) (regexText escape p).toList := by
  have hbody : ∀ cs : List Char, Body (Pattern.tail (cs.map Wildcard.ofChar))
      ((cs.map (regexPiece escape)).flatMap String.toList ++ ['$']) := by
    intro cs
    induction cs with
    | nil => exact (.cons .stop .nil : Body [.stop] (['$'] ++ []))
    | cons c cs ih =>
      rw [List.map_cons (f := regexPiece escape), List.flatMap_cons, List.append_assoc]
      exact .cons (spells_regexPiece h c) ih
  refine ⟨_, .cons .start (hbody p.toList), ?_⟩
  simp [regexText, flags, Flags.text, String.toList_join]

end

variable {engine : Engine} {p : String} {r : engine.Compiled}

/-- **Searching is matching**: an engine that can be relied on answers as the pattern itself
does. -/
theorem isMatch_eq_matches (hengine : engine.Lawful) (h : compile engine p = .ok r)
    (text : String) : engine.isMatch r text = (Pattern.ofString p).matches text := by
  have hspells := spells_regexText hengine.escape_spells p
  rw [Bool.eq_iff_iff, hengine.isMatch_iff hspells h, Pattern.found_iff_covers,
    matches_iff_covers]

end Like

/-! ## The small engine -/

namespace Regex

theorem ne_of_isMeta_eq_false {c d : Char} (h : isMeta c = false) (hd : isMeta d = true) :
    c ≠ d := by
  rintro rfl
  rw [h] at hd
  cases hd

theorem atom?_of_spells {a : Atom} {cs : List Char} (h : a.Spells cs) (rest : List Char) :
    atom? (cs ++ rest) = some (a, rest) := by
  cases h with
  | any => rfl
  | @plain c h =>
    rw [List.singleton_append, atom?, h, if_neg Bool.false_ne_true]
    · exact ne_of_isMeta_eq_false h rfl
    · rintro _ _ hescape
      exact absurd hescape (ne_of_isMeta_eq_false h rfl)
  | escaped h => exact if_pos h

/-- No atom starts like an anchor, a star or the flags. -/
theorem head?_of_spells {a : Atom} {cs : List Char} (h : a.Spells cs) (rest : List Char) {d : Char}
    (hd : d ∈ ['^', '$', '*', '(']) : (cs ++ rest).head? ≠ some d := by
  have hmeta : ∀ d ∈ ['^', '$', '*', '('], isMeta d = true ∧ d ≠ '.' ∧ d ≠ '\\' := by
    simp [isMeta]
  obtain ⟨hdmeta, hdot, hescape⟩ := hmeta d hd
  cases h with
  | any => exact fun h ↦ hdot (Option.some.inj h).symm
  | plain h => exact fun hc ↦ ne_of_isMeta_eq_false h hdmeta (Option.some.inj hc)
  | escaped h => exact fun h ↦ hescape (Option.some.inj h).symm

theorem piece?_of_atom? {cs : List Char} (hstart : cs.head? ≠ some '^')
    (hstop : cs.head? ≠ some '$') : piece? cs =
      match atom? cs with
      | none => none
      | some (a, '*' :: rest) => some (.many a, rest)
      | some (a, rest) => some (.once a, rest) := by
  unfold piece?
  split
  · exact absurd rfl hstart
  · exact absurd rfl hstop
  · rfl

/-- A piece that no star follows is read, and what follows is left. -/
theorem piece?_of_spells {p : Piece} {cs rest : List Char} (h : p.Spells cs)
    (hrest : rest.head? ≠ some '*') : piece? (cs ++ rest) = some (p, rest) := by
  cases h with
  | start => rfl
  | stop => rfl
  | once h =>
    rw [piece?_of_atom? (head?_of_spells h rest (by decide)) (head?_of_spells h rest (by decide)),
      atom?_of_spells h rest]
    split
    · rename_i heq
      cases heq
    · rename_i heq
      cases heq
      exact absurd rfl hrest
    · rename_i heq
      cases heq
      rfl
  | many h =>
    rw [List.append_assoc, piece?_of_atom? (head?_of_spells h _ (by decide))
      (head?_of_spells h _ (by decide)), atom?_of_spells h]
    rfl

/-- No piece starts like a star or the flags. -/
theorem Body.head?_ne {ps : List Piece} {cs : List Char} (h : Body ps cs) {d : Char}
    (hd : d ∈ ['*', '(']) : cs.head? ≠ some d := by
  have hsub : d ∈ ['^', '$', '*', '('] := List.mem_cons_of_mem _ (List.mem_cons_of_mem _ hd)
  have hanchors : ∀ d ∈ ['*', '('], d ≠ '^' ∧ d ≠ '$' := by simp
  obtain ⟨hstart, hstop⟩ := hanchors d hd
  cases h with
  | nil => exact Option.some_ne_none d ∘ Eq.symm
  | cons h hs =>
    cases h with
    | start => exact fun h ↦ hstart (Option.some.inj h).symm
    | stop => exact fun h ↦ hstop (Option.some.inj h).symm
    | once h => exact head?_of_spells h _ hsub
    | many h =>
      rw [List.append_assoc]
      exact head?_of_spells h _ hsub

theorem Piece.Spells.ne_nil {p : Piece} {cs : List Char} (h : p.Spells cs) : cs ≠ [] := by
  cases h with
  | start | stop => exact List.cons_ne_nil _ _
  | once h => cases h <;> exact List.cons_ne_nil _ _
  | many => exact List.append_ne_nil_of_right_ne_nil _ (List.cons_ne_nil _ _)

/-- The pieces are read off an expression. -/
theorem pieces?_of_body {ps : List Piece} {cs : List Char} (h : Body ps cs) :
    pieces? cs = some ps := by
  induction h with
  | nil => rw [pieces?]
  | @cons p ps cs ds h hs ih =>
    have hpiece := piece?_of_spells h (hs.head?_ne (by decide))
    obtain ⟨c, rest, hcs⟩ :=
      List.exists_cons_of_ne_nil (List.append_ne_nil_of_left_ne_nil h.ne_nil ds)
    rw [hcs] at hpiece ⊢
    rw [pieces?]
    split
    · rename_i hnone
      rw [hpiece] at hnone
      cases hnone
    · rename_i hsome
      rw [hpiece] at hsome
      cases hsome
      rw [ih]
      rfl

theorem wildcards?_eq_some_iff {ps : List Piece} {p : Like.Pattern} :
    wildcards? ps = some p ↔ ps = p.tail := by
  constructor
  · intro h
    fun_induction wildcards? ps generalizing p with
    | case1 => cases h; rfl
    | case2 ps ih | case3 ps ih | case4 c ps ih =>
      obtain ⟨p', hp', rfl⟩ := Option.map_eq_some_iff.mp h
      rw [ih hp']
      rfl
    | case5 => cases h
  · rintro rfl
    induction p with
    | nil => rfl
    | cons w p ih => cases w <;> exact Option.map_eq_some_iff.mpr ⟨p, ih, rfl⟩

theorem pieces?_start (cs : List Char) :
    pieces? ('^' :: cs) = (pieces? cs).map (.start :: ·) := by
  rw [pieces?]
  split
  · rename_i h
    cases h
  · rename_i h
    cases h
    rfl

/-- The expressions that are read as patterns are those with the flags and the anchors of one. -/
theorem anchored?_eq_some_iff {fs : Flags} {ps : List Piece} {expression : String}
    {p : Like.Pattern} (h : Spells fs ps expression.toList) :
    anchored? expression = some p ↔ fs = Like.flags ∧ ps = .start :: p.tail := by
  obtain ⟨body, hbody, htext⟩ := h
  have hpieces := pieces?_of_body hbody
  rw [anchored?, htext]
  constructor
  · intro hp
    split at hp
    · rename_i body' hbody'
      have hfront : fs = Like.flags ∧ body = '^' :: body' := by
        rcases fs with ⟨_ | _, _ | _, _ | _⟩ <;> simp [Flags.text, Like.flags] at hbody' ⊢
        · exact absurd (congrArg List.head? hbody') (hbody.head?_ne (by decide))
        · exact hbody'
      obtain ⟨rfl, rfl⟩ := hfront
      obtain ⟨ps', hps', hwildcards⟩ := Option.bind_eq_some_iff.mp hp
      rw [pieces?_start, hps', wildcards?_eq_some_iff.mp hwildcards] at hpieces
      exact ⟨rfl, (Option.some.inj hpieces).symm⟩
    · cases hp
  · rintro ⟨rfl, rfl⟩
    cases hbody with
    | cons h hs =>
      cases h
      refine Option.bind_eq_some_iff.mpr ⟨p.tail, pieces?_of_body hs, ?_⟩
      exact wildcards?_eq_some_iff.mpr rfl

variable {limit : Nat}

theorem escape_bounded (c : Char) :
    (Atom.letter c).Spells ((Engine.bounded limit).escape (.singleton c)).toList := by
  have htext : ((Engine.bounded limit).escape (.singleton c)).toList =
      if isMeta c then ['\\', c] else [c] := by
    simp [Engine.bounded]
  rw [htext]
  split
  · rename_i h
    exact .escaped h
  · rename_i h
    exact .plain (Bool.eq_false_of_not_eq_true h)

theorem anchored?_of_readWithin {expression : String} {p : Like.Pattern}
    (h : readWithin limit expression = .ok p) : anchored? expression = some p := by
  rw [readWithin] at h
  split at h
  · cases h
  · rename_i q hq
    split at h <;> cases h
    exact hq

/-- **The small engine can be relied on.** -/
theorem bounded_lawful (limit : Nat) : (Engine.bounded limit).Lawful where
  escape_spells := escape_bounded
  isMatch_iff h hr text := by
    obtain ⟨rfl, rfl⟩ := (anchored?_eq_some_iff h).mp (anchored?_of_readWithin hr)
    exact (Like.matches_iff_covers _ text).trans Like.Pattern.found_iff_covers.symm

end Regex

namespace Like

open Regex

/-- The small engine refuses the patterns that need too many bytes. -/
theorem compile_bounded (limit : Nat) (p : String) : compile (.bounded limit) p =
    if limit < wildcardSize * p.length then .error (tooBig limit)
    else .ok (Pattern.ofString p) := by
  have hspells := spells_regexText (@escape_bounded limit) p
  have hpattern := (anchored?_eq_some_iff hspells).mpr ⟨rfl, rfl⟩
  have hlength : (Pattern.ofString p).length = p.length := by
    rw [Pattern.ofString, List.length_map, String.length_toList]
  have hread : readWithin limit (regexText (Engine.bounded limit).escape p) =
      if limit < wildcardSize * p.length then .error (tooBig limit)
      else .ok (Pattern.ofString p) := by
    rw [readWithin, hpattern, ← hlength]
  exact hread

/-- The pattern of all texts of `n` characters. -/
def ofLength (n : Nat) : String := .ofList (List.replicate n '_')

/-- A pattern may be refused for its length alone. -/
theorem compile_ofLength {limit n : Nat} (h : limit < wildcardSize * n) :
    compile (.bounded limit) (ofLength n) = .error (tooBig limit) := by
  have hlength : (ofLength n).length = n := by
    rw [ofLength, String.length_ofList, List.length_replicate]
  rw [compile_bounded, hlength, if_pos h]

end Like
end RecordQuery
