import RecordQuery.Proofs.Lexicon
import RecordQuery.Proofs.Stream
import Mathlib.Data.Set.Subsingleton

/-!
# Texts as sequences of lexemes

A text without lexical errors is a sequence of *segments*, each a lexeme with the blanks before it,
and of blanks at its end.  `Segmented` says which sequences make up a text; a lexeme must not be
followed by a character that is barred behind it.

The lexer finds the segments one after another.  It has no choice, so there is one segmentation at
most, and the tokens of the text are its lexemes where they stand.

* `read_segment`, `read_blanks`: the lexer at the front of a segment, and behind the last one.
* `tokens_of_segmented`, `exists_segmented`: a segmented text has these tokens, and a text without
  errors is segmented.
* `Segmented.unique`: in one way only.
* `Lexer.yields_iff`: the tokens of a text without errors.
* `pulls_segments`: the stream of any text.
-/

set_option autoImplicit false

namespace RecordQuery

open Text

/-! ## Segments -/

/-- A lexeme and the blanks before it. -/
structure Segment where
  blanks : List Char
  lexeme : List Char
  /-- what the lexeme means -/
  kind : Token.Kind
deriving DecidableEq, Repr

/-- The end token of a text of length `n`. -/
def Token.atEnd (n : Nat) : Token := ⟨.finish, "", n⟩

namespace Segment

/-- The characters of the segment. -/
def chars (s : Segment) : List Char := s.blanks ++ s.lexeme

/-- The token of the segment when the segment starts at `position`. -/
def token (s : Segment) (position : Nat) : Token :=
  ⟨s.kind, String.ofList s.lexeme, position + s.blanks.length⟩

/-- The tokens of segments that start at `position`. -/
def tokens (position : Nat) : List Segment → List Token
  | [] => []
  | s :: segments => s.token position :: tokens (position + s.chars.length) segments

end Segment

/-- The text consists of the segments and of blanks behind them. -/
inductive Segmented : List Char → List Segment → Prop
  | nil {cs : List Char} (hblanks : ∀ c ∈ cs, isBlank c = true) : Segmented cs []
  | cons {s : Segment} {barred : Char → Prop} {rest : List Char} {segments : List Segment}
      (hblanks : ∀ c ∈ s.blanks, isBlank c = true) (hspells : Lexeme.Spells s.lexeme s.kind barred)
      (hrest : ∀ c ∈ rest.head?, ¬ barred c) (h : Segmented rest segments) :
      Segmented (s.chars ++ rest) (s :: segments)

/-! ## One segment -/

/-- Behind the blanks of a segment stands its lexeme. -/
theorem Segment.blanks_of_spells {s : Segment} {barred : Char → Prop}
    (hblanks : ∀ c ∈ s.blanks, isBlank c = true) (hspells : Lexeme.Spells s.lexeme s.kind barred)
    (rest : List Char) : (s.chars ++ rest).takeWhile isBlank = s.blanks ∧
      (s.chars ++ rest).dropWhile isBlank = s.lexeme ++ rest := by
  obtain ⟨c, cs, hlexeme, hc⟩ := hspells.exists_cons
  rw [chars, List.append_assoc]
  refine takeWhile_append hblanks fun d hd ↦ ?_
  rw [hlexeme] at hd
  cases hd
  exact hc

/-- The token of a lexeme is not the end token. -/
theorem Segment.isEnd_token {s : Segment} {barred : Char → Prop}
    (hspells : Lexeme.Spells s.lexeme s.kind barred) (position : Nat) :
    (s.token position).isEnd = false :=
  decide_eq_false hspells.ne_finish

/-- A segment is more than blanks. -/
theorem Segment.not_blank {s : Segment} {barred : Char → Prop}
    (hspells : Lexeme.Spells s.lexeme s.kind barred) (rest : List Char) :
    ¬ ∀ c ∈ s.chars ++ rest, isBlank c = true := by
  obtain ⟨c, cs, hlexeme, hc⟩ := hspells.exists_cons
  intro hblanks
  rw [hblanks c (by simp [chars, hlexeme])] at hc
  cases hc

theorem Segment.chars_ne_nil {s : Segment} {barred : Char → Prop}
    (hspells : Lexeme.Spells s.lexeme s.kind barred) : s.chars ≠ [] := by
  intro hnil
  exact Segment.not_blank hspells [] (by simp [hnil])

theorem dropWhile_of_blank {cs : List Char} (h : ∀ c ∈ cs, isBlank c = true) :
    cs.takeWhile isBlank = cs ∧ cs.dropWhile isBlank = [] := by
  have hend : ∀ c ∈ ([] : List Char).head?, isBlank c = false := nofun
  have hrun := takeWhile_append h hend
  rwa [List.append_nil] at hrun

namespace Lexer

/-- The length of the whole text. -/
def extent (l : Lexer) : Nat := l.position + l.rest.length

@[simp] theorem extent_ofText (text : String) : (ofText text).extent = text.length := by
  simp [extent, ofText, String.length_toList]

/-- At the front of a segment the lexer reads its lexeme. -/
theorem read_segment {l : Lexer} {s : Segment} {barred : Char → Prop} {rest : List Char}
    (hblanks : ∀ c ∈ s.blanks, isBlank c = true) (hspells : Lexeme.Spells s.lexeme s.kind barred)
    (hrest : ∀ c ∈ rest.head?, ¬ barred c) (hl : l.rest = s.chars ++ rest) :
    l.read = (.ok (s.token l.position), ⟨rest, l.position + s.chars.length, l.finished⟩) := by
  obtain ⟨htake, hdrop⟩ := Segment.blanks_of_spells hblanks hspells rest
  have hstart : l.start = l.position + s.blanks.length := by rw [start, blanks, hl, htake]
  have hscan : l.scan = ⟨.ok s.kind, s.lexeme, rest⟩ := by
    rw [scan, hl, hdrop, Lexeme.scan_of_spells hspells hrest]
  rw [read, afterNext, hscan, hstart]
  simp only [Segment.chars, List.length_append, Nat.add_assoc]
  rfl

/-- Behind the last segment the lexer reads the end. -/
theorem read_blanks {l : Lexer} (h : ∀ c ∈ l.rest, isBlank c = true) :
    l.read.1 = .ok (.atEnd l.extent) := by
  obtain ⟨htake, hdrop⟩ := dropWhile_of_blank h
  have hstart : l.start = l.extent := by rw [start, blanks, htake, extent]
  have hscan : l.scan = ⟨.ok .finish, [], []⟩ := by rw [scan, hdrop, Lexeme.scan]
  rw [read, hscan, hstart]
  rfl

/-- A token is read behind the last segment, and then it is the end, or at the front of a
segment. -/
theorem cases_of_read {l l' : Lexer} {t : Token} (h : l.read = (.ok t, l')) :
    (t = .atEnd l.extent ∧ ∀ c ∈ l.rest, isBlank c = true) ∨
      ∃ (s : Segment) (barred : Char → Prop), t = s.token l.position ∧
        (∀ c ∈ s.blanks, isBlank c = true) ∧ Lexeme.Spells s.lexeme s.kind barred ∧
          (∀ c ∈ l'.rest.head?, ¬ barred c) ∧ l.rest = s.chars ++ l'.rest := by
  have hsplit := List.takeWhile_append_dropWhile (p := isBlank) (l := l.rest)
  cases hfront : l.rest.dropWhile isBlank with
  | nil =>
    have hblanks : ∀ c ∈ l.rest, isBlank c = true := by
      rw [hfront, List.append_nil] at hsplit
      rw [← hsplit]
      exact fun c ↦ List.mem_takeWhile_imp
    have hread := read_blanks hblanks
    rw [h] at hread
    exact .inl ⟨Except.ok.inj hread, hblanks⟩
  | cons c cs =>
    cases hk : l.scan.outcome with
    | error e => rw [read, hk] at h; cases h
    | ok kind =>
      obtain ⟨barred, hspells, hrest⟩ := Lexeme.scan_sound l.start (List.cons_ne_nil c cs) kind
        (by rw [← hfront]; exact hk)
      rw [← hfront] at hspells hrest
      rw [read, hk] at h
      cases h
      exact .inr ⟨⟨l.blanks, l.scan.taken, kind⟩, barred, rfl, fun c ↦ List.mem_takeWhile_imp,
        hspells, hrest, l.read_rest.symm⟩

/-! ## Tokens -/

/-- The tokens of a segmented text are its lexemes, each at its place, and the end. -/
theorem tokens_of_segmented {cs : List Char} {segments : List Segment} (h : Segmented cs segments)
    {l : Lexer} (hl : l.rest = cs) :
    l.tokens = (Segment.tokens l.position segments).map .ok ++ [.ok (.atEnd l.extent)] := by
  induction h generalizing l with
  | nil hblanks =>
    have hread := tokens_of_read_ok (Prod.ext (read_blanks (hl ▸ hblanks)) rfl)
    exact hread
  | @cons s barred rest segments hblanks hspells hrest _ ih =>
    have hread := read_segment hblanks hspells hrest hl
    have hextent : (Lexer.mk rest (l.position + s.chars.length) l.finished).extent = l.extent := by
      rw [extent, extent, hl, List.length_append, Nat.add_assoc]
    rw [tokens_of_read_ok hread, Segment.isEnd_token hspells, if_neg Bool.false_ne_true, ih rfl,
      hextent]
    rfl

/-- A text without lexical errors is segmented. -/
theorem exists_segmented {l : Lexer} (h : ∀ e, .error e ∉ l.tokens) :
    ∃ segments, Segmented l.rest segments := by
  fun_induction tokens l with
  | case1 l e l' hread => exact absurd (List.mem_singleton_self _) (h e)
  | case2 l t l' hread hend =>
    rcases cases_of_read hread with ⟨-, hblanks⟩ | ⟨s, barred, rfl, -, hspells, -⟩
    · exact ⟨[], .nil hblanks⟩
    · rw [Segment.isEnd_token hspells] at hend
      cases hend
  | case3 l t l' hread hend hlt ih =>
    rcases cases_of_read hread with ⟨rfl, -⟩ | ⟨s, barred, -, hblanks, hspells, hrest, hl⟩
    · exact absurd rfl hend
    · obtain ⟨segments, hsegments⟩ := ih fun e he ↦ h e (List.mem_cons_of_mem _ he)
      rw [hl]
      exact ⟨s :: segments, .cons hblanks hspells hrest hsegments⟩

end Lexer

/-! ## Uniqueness -/

/-- The front of a text settles the segment there and what is left behind it. -/
theorem segment_unique {s s' : Segment} {barred barred' : Char → Prop} {rest rest' : List Char}
    (hblanks : ∀ c ∈ s.blanks, isBlank c = true) (hspells : Lexeme.Spells s.lexeme s.kind barred)
    (hrest : ∀ c ∈ rest.head?, ¬ barred c) (hblanks' : ∀ c ∈ s'.blanks, isBlank c = true)
    (hspells' : Lexeme.Spells s'.lexeme s'.kind barred') (hrest' : ∀ c ∈ rest'.head?, ¬ barred' c)
    (h : s'.chars ++ rest' = s.chars ++ rest) : s' = s ∧ rest' = rest := by
  obtain ⟨htake, hdrop⟩ := Segment.blanks_of_spells hblanks hspells rest
  obtain ⟨htake', hdrop'⟩ := Segment.blanks_of_spells hblanks' hspells' rest'
  rw [h] at htake' hdrop'
  have hscan := Lexeme.scan_of_spells hspells hrest 0
  have hscan' := Lexeme.scan_of_spells hspells' hrest' 0
  rw [← hdrop', hdrop, hscan] at hscan'
  simp only [Lexeme.Scan.mk.injEq, Except.ok.injEq] at hscan'
  obtain ⟨hkind, hlexeme, hrest⟩ := hscan'
  refine ⟨?_, hrest.symm⟩
  rw [Segment.mk.injEq]
  exact ⟨htake'.symm.trans htake, hlexeme.symm, hkind.symm⟩

/-- There is only one way to cut a text into segments. -/
theorem Segmented.unique {cs : List Char} {segments segments' : List Segment}
    (h : Segmented cs segments) (h' : Segmented cs segments') : segments' = segments := by
  induction h generalizing segments' with
  | nil hblanks =>
    cases h' with
    | nil => rfl
    | cons _ hspells' => exact absurd hblanks (Segment.not_blank hspells' _)
  | @cons s barred rest segments hblanks hspells hrest _ ih =>
    generalize htext : s.chars ++ rest = cs at h'
    cases h' with
    | nil hblanks' => exact absurd (htext ▸ hblanks') (Segment.not_blank hspells rest)
    | cons hblanks' hspells' hrest' h' =>
      obtain ⟨rfl, rfl⟩ :=
        segment_unique hblanks hspells hrest hblanks' hspells' hrest' htext.symm
      rw [ih h']

/-! ## The segment of a token -/

namespace Segment

theorem map_kind_tokens (position : Nat) (segments : List Segment) :
    (tokens position segments).map (·.kind) = segments.map (·.kind) := by
  induction segments generalizing position with
  | nil => rfl
  | cons s segments ih => exact congrArg (s.kind :: ·) (ih _)

/-- A token of segments belongs to one of them, which stands behind all segments before it. -/
theorem exists_of_tokens_eq {position : Nat} {segments : List Segment} {before after : List Token}
    {t : Token} (h : tokens position segments = before ++ t :: after) :
    ∃ pre s post, segments = pre ++ s :: post ∧
      before.map (·.kind) = pre.map (·.kind) ∧ after.map (·.kind) = post.map (·.kind) ∧
        t = s.token (position + (pre.flatMap chars).length) := by
  induction before generalizing position segments with
  | nil =>
    cases segments with
    | nil => cases h
    | cons s segments =>
      cases h
      exact ⟨[], s, segments, rfl, rfl, map_kind_tokens _ _, rfl⟩
  | cons b before ih =>
    cases segments with
    | nil => cases h
    | cons r segments =>
      rw [tokens, List.cons_append, List.cons.injEq] at h
      obtain ⟨rfl, h⟩ := h
      obtain ⟨pre, s, post, rfl, hbefore, hafter, rfl⟩ := ih h
      refine ⟨r :: pre, s, post, rfl, congrArg (r.kind :: ·) hbefore, hafter, ?_⟩
      rw [List.flatMap_cons, List.length_append, Nat.add_assoc]

end Segment

theorem Segmented.chars_ne_nil {cs : List Char} {s : Segment} {segments : List Segment}
    (h : Segmented cs (s :: segments)) : s.chars ≠ [] := by
  cases h with
  | cons _ hspells => exact Segment.chars_ne_nil hspells

/-! ## Any text -/

theorem Lexer.tokens_ofText {text : String} {segments : List Segment}
    (h : Segmented text.toList segments) : (ofText text).tokens =
      (Segment.tokens 0 segments).map .ok ++ [.ok (.atEnd text.length)] := by
  rw [tokens_of_segmented h (l := ofText text) rfl, extent_ofText]
  rfl

/-- Without an error, the tokens of a text are those of its segments. -/
theorem Lexer.yields_iff {text : String} {tokens : List Token} : (ofText text).Yields tokens ↔
    ∃ segments, Segmented text.toList segments ∧ tokens = Segment.tokens 0 segments := by
  have hyields : ∀ segments, Segmented text.toList segments →
      (ofText text).Yields (Segment.tokens 0 segments) := fun segments h ↦ ⟨_, rfl, tokens_ofText h⟩
  constructor
  · intro h
    have hsafe : ∀ e, .error e ∉ (ofText text).tokens := by
      obtain ⟨last, -, htokens⟩ := h
      simp [htokens]
    obtain ⟨segments, hsegments⟩ := exists_segmented hsafe
    exact ⟨segments, hsegments, (hyields segments hsegments).unique h⟩
  · rintro ⟨segments, h, rfl⟩
    exact hyields segments h

/-- **The lexical grammar**: the stream of a text is settled by the text.  It is free of errors
exactly when the text is a sequence of lexemes and blanks, which it is in one way only, and then it
yields the lexemes, each where it stands, and the end. -/
theorem pulls_segments (text : String) :
    ∃ items, (∀ items', (Lexer.ofText text).Pulls items' ↔ items' = items) ∧
      ((∀ e, .error e ∉ items) ↔ ∃ segments, Segmented text.toList segments) ∧
      {segments | Segmented text.toList segments}.Subsingleton ∧
      ∀ segments, Segmented text.toList segments →
        items = (Segment.tokens 0 segments).map .ok ++ [.ok (.atEnd text.length)] := by
  refine ⟨(Lexer.ofText text).tokens, fun items' ↦ Lexer.pulls_iff rfl, ⟨fun h ↦ ?_, ?_⟩, ?_,
    fun segments ↦ Lexer.tokens_ofText⟩
  · exact Lexer.exists_segmented (l := Lexer.ofText text) h
  · rintro ⟨segments, h⟩ e he
    rw [Lexer.tokens_ofText h] at he
    simp at he
  · exact fun segments h segments' h' ↦ h'.unique h

end RecordQuery
