import RecordQuery.Proofs.Displacement
import RecordQuery.Proofs.Viability

/-!
# String literals

There is one way to write a string: in quotes, with a backslash before each quote and each backslash
of it.  The lexer reads that spelling, whatever stands around it, and it reads no other one.

A quote directly behind a literal is refused where it stands.  The tokens before the literal are
those of the shorter text, and what follows the quote is never looked at.  So a query that is cut
off behind one of its literals, and goes on with a quote, fails there whatever else is in it.

* `Lexeme.spelling`: how a string is written.
* `Lexer.read_spelling`: the spelling is read, and the lexer goes on behind it.
* `Lexer.lexeme_of_read`: nothing else is read as the string.
* `Lexer.denotes_iff`: a text that is one literal is the spelling of what it denotes.
* `Segmented.tokens_of_front`: the tokens at the front of a text do not depend on what follows.
* `Grammar.parse_of_lexical_error`: a sentence that breaks off with a lexical error fails with it.
* `prepareText_doubled`: a query with a doubled quote.
-/

set_option autoImplicit false

namespace RecordQuery

open Text

/-! ## Spellings -/

namespace Lexeme

/-- The string literal that denotes `s`. -/
def spelling (s : String) : String := String.ofList (quoted s.toList)

theorem toList_spelling (s : String) : (spelling s).toList = quoted s.toList :=
  String.toList_ofList

/-- A string is spelled in one way. -/
theorem Spells.eq_quoted {cs : List Char} {s : String} {barred : Char → Prop}
    (h : Spells cs (.string s) barred) : cs = quoted s.toList := by
  generalize hkind : Token.Kind.string s = kind at h
  cases h with
  | string text =>
    cases hkind
    rw [String.toList_ofList]
  | word =>
    rw [wordKind] at hkind
    split_ifs at hkind
  | operator | leftParen | rightParen | comparator | number => cases hkind

/-- A quote behind a literal is refused where it stands, whatever follows. -/
theorem scan_doubled (start : Nat) (text rest : List Char) :
    (scan start (quoted text ++ '"' :: rest)).outcome =
      .error ⟨.doubledQuote, start + (quoted text).length⟩ := by
  have hquoted : quoted text ++ '"' :: rest = '"' :: (escaped text ++ '"' :: '"' :: rest) := by
    simp [quoted]
  have hlength : (quoted text).length = 1 + (escaped text ++ ['"']).length := by
    rw [quoted, List.length_cons, Nat.add_comm]
  rw [hquoted, scan, scanString_escaped, List.head?_cons, if_pos rfl, hlength, ← Nat.add_assoc]
  rfl

end Lexeme

/-! ## One literal -/

namespace Segment

/-- The spelling of `s` with no blanks before it. -/
def ofString (s : String) : Segment := ⟨[], Lexeme.quoted s.toList, .string s⟩

theorem chars_ofString (s : String) : (ofString s).chars = Lexeme.quoted s.toList :=
  List.nil_append _

theorem token_ofString (s : String) (position : Nat) :
    (ofString s).token position = ⟨.string s, Lexeme.spelling s, position⟩ := rfl

theorem blank_ofString (s : String) : ∀ c ∈ (ofString s).blanks, isBlank c = true := nofun

theorem spells_ofString (s : String) :
    Lexeme.Spells (ofString s).lexeme (ofString s).kind fun c ↦ c = '"' := by
  have hstring := Lexeme.Spells.string s.toList
  rwa [String.ofList_toList] at hstring

end Segment

namespace Lexer

open Lexeme

/-- A string is read from its spelling.  Only a quote may not stand behind it. -/
theorem read_spelling {l : Lexer} {s : String} {rest : List Char}
    (hl : l.rest = (spelling s).toList ++ rest) (hrest : rest.head? ≠ some '"') :
    l.read = (.ok ⟨.string s, spelling s, l.position⟩,
      ⟨rest, l.position + (spelling s).length, l.finished⟩) := by
  have hquote : ∀ c ∈ rest.head?, ¬ c = '"' := by
    rintro _ hc rfl
    exact hrest hc
  rw [toList_spelling, ← Segment.chars_ofString] at hl
  rw [read_segment (Segment.blank_ofString s) (Segment.spells_ofString s) hquote hl,
    Segment.token_ofString, Segment.chars_ofString, spelling, String.length_ofList]

/-- A string that is read is spelled in the one way there is. -/
theorem lexeme_of_read {l l' : Lexer} {t : Token} {s : String} (h : l.read = (.ok t, l'))
    (hkind : t.kind = .string s) : t.lexeme = spelling s := by
  rcases cases_of_read h with ⟨rfl, -⟩ | ⟨segment, barred, rfl, -, hspells, -⟩
  · cases hkind
  · have hlexeme : Segment.kind segment = .string s := hkind
    rw [hlexeme] at hspells
    rw [Segment.token, hspells.eq_quoted, spelling]

theorem lexeme_of_mem_tokens {l : Lexer} {t : Token} {s : String} (h : .ok t ∈ l.tokens)
    (hkind : t.kind = .string s) : t.lexeme = spelling s := by
  fun_induction tokens l with
  | case1 l e l' hread => cases List.mem_singleton.mp h
  | case2 l t' l' hread hend =>
    cases List.mem_singleton.mp h
    exact lexeme_of_read hread hkind
  | case3 l t' l' hread hend hlt ih =>
    rcases List.mem_cons.mp h with h | h
    · cases h
      exact lexeme_of_read hread hkind
    · exact ih h

/-- The text is one string literal, from its first character to its last, and denotes `s`. -/
def Denotes (text s : String) : Prop :=
  ∃ t : Token, t.kind = .string s ∧ t.lexeme = text ∧
    (ofText text).tokens = [.ok t, .ok (.atEnd text.length)]

/-- A literal and what it denotes settle each other. -/
theorem denotes_iff {text s : String} : Denotes text s ↔ text = spelling s := by
  constructor
  · rintro ⟨t, hkind, rfl, htokens⟩
    refine lexeme_of_mem_tokens (l := ofText t.lexeme) ?_ hkind
    rw [htokens]
    exact List.mem_cons_self
  · rintro rfl
    have hend : Segmented [] [] := .nil nofun
    have hquote : ∀ c ∈ ([] : List Char).head?, ¬ c = '"' := nofun
    have hsegmented := Segmented.cons (Segment.blank_ofString s) (Segment.spells_ofString s) hquote
      hend
    rw [Segment.chars_ofString, List.append_nil, ← toList_spelling] at hsegmented
    refine ⟨⟨.string s, spelling s, 0⟩, rfl, rfl, ?_⟩
    rw [tokens_ofText hsegmented, Segment.tokens, Segment.token_ofString]
    rfl

theorem Denotes.unique {text s s' : String} (h : Denotes text s) (h' : Denotes text s') :
    s' = s := by
  obtain ⟨t, hkind, -, htokens⟩ := h
  obtain ⟨t', hkind', -, htokens'⟩ := h'
  rw [htokens, List.cons.injEq, Except.ok.injEq] at htokens'
  rw [← htokens'.1, hkind] at hkind'
  exact (Token.Kind.string.inj hkind').symm

/-- **Spelling is a bijection**: wherever the lexer is, it reads the spelling of a string as that
string and goes on behind it.  No other literal is read as the string, so that a literal and what it
denotes settle each other. -/
theorem strings_spelled (s : String) :
    (∀ (l : Lexer) (rest : List Char), l.rest = (spelling s).toList ++ rest →
      rest.head? ≠ some '"' →
        l.read = (.ok ⟨.string s, spelling s, l.position⟩,
          ⟨rest, l.position + (spelling s).length, l.finished⟩)) ∧
    (∀ (l : Lexer) (t : Token), l.read.1 = .ok t → t.kind = .string s → t.lexeme = spelling s) ∧
    (∀ (text : String) (t : Token), .ok t ∈ (ofText text).tokens → t.kind = .string s →
      t.lexeme = spelling s) ∧
    (∀ text : String, Denotes text s ↔ text = spelling s) ∧
    ∀ s' : String, spelling s' = spelling s → s' = s := by
  refine ⟨fun l rest hl hrest ↦ read_spelling hl hrest,
    fun l t hread hkind ↦ lexeme_of_read (Prod.ext hread rfl) hkind,
    fun text t ht hkind ↦ lexeme_of_mem_tokens ht hkind, fun text ↦ denotes_iff, fun s' h ↦ ?_⟩
  exact (denotes_iff.mpr rfl : Denotes (spelling s) s).unique (denotes_iff.mpr h.symm)

/-- A backslash at the end of the string does not take the closing quote along. -/
theorem strings_spelled_backslash :
    (ofText "\"a\\\\\"AND").read =
      (.ok ⟨.string "a\\", "\"a\\\\\"", 0⟩, ⟨['A', 'N', 'D'], 5, false⟩) :=
  (strings_spelled "a\\").1 (ofText "\"a\\\\\"AND") ['A', 'N', 'D'] (by decide) (by decide)

end Lexer

/-! ## The front of a text -/

/-- What stands in front of a segment is read as its tokens, whatever stands behind the segment. -/
theorem Segmented.tokens_of_front {pre post : List Segment} {s : Segment} {cs : List Char}
    (h : Segmented cs (pre ++ s :: post)) :
    ∃ barred rest, cs = pre.flatMap Segment.chars ++ (s.chars ++ rest) ∧
      (∀ c ∈ s.blanks, isBlank c = true) ∧ Lexeme.Spells s.lexeme s.kind barred ∧
      ∀ (l : Lexer) (rest' : List Char),
        l.rest = pre.flatMap Segment.chars ++ (s.chars ++ rest') →
          l.tokens = (Segment.tokens l.position pre).map .ok ++
            (Lexer.mk (s.chars ++ rest') (l.position + (pre.flatMap Segment.chars).length)
              l.finished).tokens := by
  induction pre generalizing cs with
  | nil =>
    cases h with
    | @cons _ barred rest _ hblanks hspells =>
      refine ⟨barred, rest, rfl, hblanks, hspells, fun l rest' hl ↦ ?_⟩
      obtain ⟨_, position, finished⟩ := l
      cases hl
      rfl
  | cons r pre ih =>
    cases h with
    | @cons _ barred' _ _ hblanks' hspells' hrest h =>
      obtain ⟨barred, rest, rfl, hblanks, hspells, hfront⟩ := ih h
      refine ⟨barred, rest, by simp, hblanks, hspells, fun l rest' hl ↦ ?_⟩
      -- behind `r` there is a character that both texts have
      have hne : pre.flatMap Segment.chars ++ s.chars ≠ [] :=
        List.append_ne_nil_of_right_ne_nil _ (Segment.chars_ne_nil hspells)
      rw [← List.append_assoc, List.head?_append_of_ne_nil _ hne] at hrest
      have hrest' : ∀ c ∈ (pre.flatMap Segment.chars ++ (s.chars ++ rest')).head?,
          ¬ barred' c := by
        rwa [← List.append_assoc, List.head?_append_of_ne_nil _ hne]
      rw [List.flatMap_cons, List.append_assoc] at hl
      have hread := Lexer.read_segment hblanks' hspells' hrest' hl
      rw [Lexer.tokens_of_read_ok hread, Segment.isEnd_token hspells', if_neg Bool.false_ne_true,
        hfront _ rest' rfl]
      simp [Segment.tokens, Nat.add_assoc]

namespace Lexer

/-- Behind a string the lexer stops at a quote. -/
theorem read_doubled {l : Lexer} {s : Segment} {barred : Char → Prop} {text : String}
    {rest : List Char} (hblanks : ∀ c ∈ s.blanks, isBlank c = true)
    (hspells : Lexeme.Spells s.lexeme s.kind barred) (hkind : s.kind = .string text)
    (hl : l.rest = s.chars ++ '"' :: rest) :
    l.read.1 = .error ⟨.doubledQuote, l.position + s.chars.length⟩ := by
  obtain ⟨htake, hdrop⟩ := Segment.blanks_of_spells hblanks hspells ('"' :: rest)
  rw [hkind] at hspells
  have hstart : l.start = l.position + s.blanks.length := by rw [start, blanks, hl, htake]
  rw [read, scan, hl, hdrop, hspells.eq_quoted, Lexeme.scan_doubled, hstart, Segment.chars,
    List.length_append, ← Nat.add_assoc, hspells.eq_quoted]
  rfl

/-- A text that is cut off behind one of its strings, and goes on with a quote, has the tokens in
front of the string, and then an error at the quote. -/
theorem tokens_doubled {text : String} {tokens : List Token} {t : Token} {s : String}
    (h : (ofText text).Yields tokens) (ht : t ∈ tokens) (hkind : t.kind = .string s) :
    ∃ (front back : String) (before after : List Token), text = front ++ t.lexeme ++ back ∧
      front.length = t.offset ∧ tokens = before ++ after ∧
      ∀ rest : String, (ofText (front ++ t.lexeme ++ "\"" ++ rest)).tokens =
        before.map .ok ++ [.error ⟨.doubledQuote, (front ++ t.lexeme).length⟩] := by
  obtain ⟨segments, hsegments, rfl⟩ := yields_iff.mp h
  obtain ⟨before, after, hsplit⟩ := List.append_of_mem ht
  obtain ⟨pre, segment, post, rfl, -, -, rfl⟩ := Segment.exists_of_tokens_eq hsplit
  obtain ⟨barred, back, htext, hblanks, hspells, hfront⟩ := hsegments.tokens_of_front
  refine ⟨String.ofList (pre.flatMap Segment.chars ++ segment.blanks), String.ofList back,
    Segment.tokens 0 pre, _, ?_, ?_, Segment.tokens_append 0 pre _, fun rest ↦ ?_⟩
  · rw [← String.ofList_toList (s := text), htext]
    simp [Segment.token, Segment.chars, String.ofList_append, String.append_assoc]
  · simp [Segment.token]
  · have hrest : (ofText (String.ofList (pre.flatMap Segment.chars ++ segment.blanks) ++
        String.ofList segment.lexeme ++ "\"" ++ rest)).rest =
          pre.flatMap Segment.chars ++ (segment.chars ++ '"' :: rest.toList) := by
      simp [ofText, Segment.chars]
    have hread := read_doubled (l := ⟨segment.chars ++ '"' :: rest.toList,
      0 + (pre.flatMap Segment.chars).length, false⟩) hblanks hspells hkind rfl
    have hlength : (String.ofList (pre.flatMap Segment.chars ++ segment.blanks) ++
        String.ofList segment.lexeme).length =
          0 + (pre.flatMap Segment.chars).length + segment.chars.length := by
      simp [Segment.chars, Nat.add_assoc]
    have htokens := tokens_of_read_error (Prod.ext hread rfl)
    rw [Segment.token, hfront _ _ hrest, hlength]
    exact congrArg (List.map .ok (Segment.tokens 0 pre) ++ ·) htokens

end Lexer

/-! ## Queries -/

/-- A sentence that breaks off with a lexical error fails with that error. -/
theorem Grammar.parse_of_lexical_error {g : Grammar} {text text' : String} {e : Expr}
    {before after : List Token} {err : SyntaxError} (h : (g.parse text).result = .ok e)
    (htokens : (Lexer.ofText text).Yields (before ++ after))
    (htokens' : (Lexer.ofText text').tokens = before.map .ok ++ [.error err]) :
    (g.parse text').result = .error err := by
  obtain ⟨tokens, htext, hsymbols, hadmits⟩ := parse_eq_ok_iff.mp h
  obtain rfl := htext.unique htokens
  have hviable : g.Viable before := ⟨after, e, hadmits, hsymbols⟩
  obtain ⟨s, hmoves⟩ := viable_iff.mp hviable
  have hread := g.read_initial_tokens text'
  rw [htokens', read_of_moves hmoves, read] at hread
  exact (Option.some.inj hread).symm

/-- **A doubled quote ends everything**: a query that is cut off behind one of its strings, and goes
on with a quote, is refused at this quote, and it does not matter what stands behind it. -/
theorem prepareText_doubled {text : String} {q : PreparedQuery}
    (h : (prepareText text).result = .ok q) {t : Token} {s : String}
    (ht : .ok t ∈ (Lexer.ofText text).tokens) (hkind : t.kind = .string s) :
    ∃ front back : String, text = front ++ t.lexeme ++ back ∧ front.length = t.offset ∧
      ∀ rest : String, ∃ err : SyntaxError,
        (prepareText (front ++ t.lexeme ++ "\"" ++ rest)).result = .error (.syntaxError err) ∧
          err.cause.message = "unexpected quote after string literal" ∧
            err.position = (front ++ t.lexeme).length := by
  obtain ⟨e, hparse, -⟩ := prepareText_eq_ok_iff.mp h
  obtain ⟨tokens, hyields, -, -⟩ := Grammar.parse_eq_ok_iff.mp hparse
  have hmem : t ∈ tokens := by
    obtain ⟨last, hlast, hstream⟩ := hyields
    rw [hstream, List.mem_append, List.mem_singleton] at ht
    rcases ht with ht | ht
    · simpa using ht
    · cases ht
      rw [Token.isEnd, hkind] at hlast
      cases hlast
  obtain ⟨front, back, before, after, htext, hfront, rfl, hdoubled⟩ :=
    Lexer.tokens_doubled hyields hmem hkind
  refine ⟨front, back, htext, hfront, fun rest ↦ ?_⟩
  have herror := Grammar.parse_of_lexical_error hparse hyields (hdoubled rest)
  exact ⟨_, prepareText_of_error herror, rfl, rfl⟩

/-- What follows the quote would close another string and the parenthesis. -/
theorem prepareText_doubled_in_parentheses : ∃ front back : String,
    "(a LIKE \"x\" OR b = 2)" = front ++ "\"x\"" ++ back ∧ front.length = 8 ∧
      ∃ err : SyntaxError,
        (prepareText (front ++ "\"x\"" ++ "\"" ++ " OR \" OR b = 2)")).result =
            .error (.syntaxError err) ∧
          err.cause.message = "unexpected quote after string literal" ∧
            err.position = (front ++ "\"x\"").length := by
  let q : PreparedQuery :=
    ⟨.logical .or (.comparison ⟨["a"], by decide, by decide⟩ .like 0)
      (.comparison ⟨["b"], by decide, by decide⟩ .equal 1), [.string "x", .integer 2], by decide⟩
  have h : (prepareText "(a LIKE \"x\" OR b = 2)").result = .ok q := by decide +kernel
  have ht : .ok (Token.mk (.string "x") "\"x\"" 8) ∈
      (Lexer.ofText "(a LIKE \"x\" OR b = 2)").tokens := by decide +kernel
  obtain ⟨front, back, htext, hfront, hdoubled⟩ := prepareText_doubled h ht rfl
  exact ⟨front, back, htext, hfront, hdoubled " OR \" OR b = 2)"⟩

end RecordQuery
