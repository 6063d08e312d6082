import RecordQuery.Proofs.Relocation
import Mathlib.Data.List.Infix

/-!
# Names of fields

A name is cut at its dots, and it names a field when every piece is filled.  Which names these are
can be seen without cutting: an empty piece is a dot too many, at either end of the name or next to
another dot (`FieldPath.ofName?_eq_none_iff`).  Pieces are described by where they stand in the name
(`FieldPath.IsPiece`), and the segments of a path are the pieces of its name in that order.

The lexer reads a dot only with a segment before and behind it, so every word it reads names a
field.  A parser gets its tokens from a lexer and from nowhere else.  The check that it makes when
it turns a word into a path therefore never fails, whatever has been read before and however often
it is called.

* `FieldPath.isPiece_iff`: the pieces of a name.
* `Lexer.exists_path_of_read`: the words of a text name fields.
* `Token.NamesPath`, `Parser.namesPath_run`: so does the token that a parser has in front of it.
* `Parser.cause_ne_of_mem_outcomes`: no call fails on the name of a field.
* `FieldPath.names_correspond`: names, words and paths.
-/

set_option autoImplicit false

namespace RecordQuery

/-! ## The pieces of a name -/

namespace FieldPath

/-- Behind `before` stands a run of `cs` without dots that cannot be made longer: on either side of
it is a dot or an end of `cs`. -/
def IsPiece (cs before piece : List Char) : Prop :=
  ∃ after, cs = before ++ piece ++ after ∧ '.' ∉ piece ∧
    (∀ c ∈ before.getLast?, c = '.') ∧ ∀ c ∈ after.head?, c = '.'

/-- A run without dots is cut off at the dot behind it. -/
theorem exists_splitOn_eq_cons {piece after : List Char} (hpiece : '.' ∉ piece)
    (hafter : ∀ c ∈ after.head?, c = '.') :
    ∃ others, (piece ++ after).splitOn '.' = piece :: others := by
  cases after with
  | nil => exact ⟨[], by rw [List.append_nil, List.splitOn_eq_singleton hpiece]⟩
  | cons c after =>
    obtain rfl := hafter c rfl
    refine ⟨after.splitOn '.', ?_⟩
    rw [List.splitOn_append_cons_self, List.splitOn_eq_singleton hpiece, List.singleton_append]

/-- With a dot behind every piece, the pieces are the name and a dot. -/
theorem flatMap_splitOn (cs : List Char) :
    (cs.splitOn '.').flatMap (· ++ ['.']) = cs ++ ['.'] := by
  induction cs with
  | nil => rfl
  | cons c cs ih =>
    rw [List.splitOn_cons_eq_if_modifyHead]
    split
    · rename_i hc
      obtain rfl := eq_of_beq hc
      rw [List.flatMap_cons, ih]
      rfl
    · obtain ⟨first, others, hsplit⟩ := List.exists_cons_of_ne_nil (List.splitOn_ne_nil '.' cs)
      rw [hsplit, List.flatMap_cons] at ih
      rw [hsplit, List.modifyHead_cons, List.flatMap_cons, List.cons_append, List.cons_append, ih]
      rfl

/-- Pieces with dots between them, cut behind some of the pieces. -/
theorem intercalate_append_cons (first others : List (List Char)) (piece : List Char) :
    ['.'].intercalate (first ++ piece :: others) =
      first.flatMap (· ++ ['.']) ++ piece ++ others.flatMap ('.' :: ·) := by
  induction first with
  | nil =>
    induction others generalizing piece with
    | nil => simp
    | cons q others ih =>
      rw [List.nil_append, List.intercalate_cons_cons, ← List.nil_append (q :: others), ih]
      simp
  | cons p first ih =>
    obtain ⟨q, rest, hrest⟩ := List.exists_cons_of_ne_nil
      (List.append_ne_nil_of_right_ne_nil first (List.cons_ne_nil piece others))
    rw [List.cons_append, hrest, List.intercalate_cons_cons, ← hrest, ih]
    simp

/-- The pieces are found where the name is cut, in order. -/
theorem isPiece_iff {cs before piece : List Char} :
    IsPiece cs before piece ↔
      ∃ first others, cs.splitOn '.' = first ++ piece :: others ∧
        before = first.flatMap (· ++ ['.']) := by
  constructor
  · rintro ⟨after, rfl, hpiece, hbefore, hafter⟩
    obtain ⟨others, hothers⟩ := exists_splitOn_eq_cons hpiece hafter
    rcases List.eq_nil_or_concat' before with rfl | ⟨front, c, rfl⟩
    · exact ⟨[], others, hothers, rfl⟩
    · obtain rfl := hbefore c List.getLast?_concat
      refine ⟨front.splitOn '.', others, ?_, (flatMap_splitOn front).symm⟩
      rw [List.append_assoc, List.append_assoc, List.singleton_append,
        List.splitOn_append_cons_self, hothers]
  · rintro ⟨first, others, hsplit, rfl⟩
    refine ⟨others.flatMap ('.' :: ·), ?_, ?_, ?_, ?_⟩
    · rw [← intercalate_append_cons, ← hsplit, List.intercalate_splitOn]
    · exact dot_notMem_of_mem_splitOn (hsplit ▸ List.mem_append_right first List.mem_cons_self)
    · intro c hc
      rcases List.eq_nil_or_concat' first with rfl | ⟨front, last, rfl⟩
      · cases hc
      · simpa using hc.symm
    · intro c hc
      cases others with
      | nil => cases hc
      | cons q others => simpa using hc.symm

/-- The segments of a path are the pieces of the name it was read from, in order. -/
theorem isPiece_iff_segments {name : String} {path : FieldPath} (h : ofName? name = some path)
    {before piece : List Char} :
    IsPiece name.toList before piece ↔
      ∃ first segment others, path.segments = first ++ segment :: others ∧
        before = first.flatMap (·.toList ++ ['.']) ∧ piece = segment.toList := by
  have hpieces : path.segments.map String.toList = name.toList.splitOn '.' := by
    rw [ofSegments?_eq_some.1 h, List.map_map]
    simp [Function.comp_def]
  rw [isPiece_iff, ← hpieces]
  constructor
  · rintro ⟨first, others, hsegments, rfl⟩
    obtain ⟨first, behind, hcut, rfl, hbehind⟩ := List.map_eq_append_iff.mp hsegments
    obtain ⟨segment, others, rfl, rfl, rfl⟩ := List.map_eq_cons_iff.mp hbehind
    exact ⟨first, segment, others, hcut, List.flatMap_map .., rfl⟩
  · rintro ⟨first, segment, others, hsegments, rfl, rfl⟩
    refine ⟨first.map String.toList, others.map String.toList, ?_, ?_⟩
    · rw [hsegments, List.map_append, List.map_cons]
    · rw [List.flatMap_map]

/-! ## Names without a path -/

/-- A name is refused for a piece without characters. -/
theorem ofName?_eq_none_iff_mem {name : String} :
    ofName? name = none ↔ [] ∈ name.toList.splitOn '.' := by
  rw [ofName?, ofSegments?]
  have hne : (name.toList.splitOn '.').map String.ofList ≠ [] := by
    rw [Ne, List.map_eq_nil_iff]
    exact List.splitOn_ne_nil '.' name.toList
  have hfilled : (∀ s ∈ (name.toList.splitOn '.').map String.ofList, s ≠ "") ↔
      [] ∉ name.toList.splitOn '.' := by
    rw [List.forall_mem_map]
    constructor
    · exact fun h hmem ↦ h [] hmem rfl
    · rintro h piece hpiece hnil
      rw [String.ofList_eq_empty_iff.mp hnil] at hpiece
      exact h hpiece
  split
  · rename_i h
    exact iff_of_false (Option.some_ne_none _) (hfilled.mp h.2)
  · rename_i h
    exact iff_of_true rfl (not_not.mp fun hmem ↦ h ⟨hne, hfilled.mpr hmem⟩)

/-- A piece without characters is at the beginning or the end, or between two dots. -/
theorem exists_isPiece_nil_iff {cs : List Char} :
    (∃ before, IsPiece cs before []) ↔
      cs = [] ∨ ['.'] <+: cs ∨ ['.'] <:+ cs ∨ ['.', '.'] <:+: cs := by
  constructor
  · rintro ⟨before, after, rfl, -, hbefore, hafter⟩
    rw [List.append_nil]
    rcases List.eq_nil_or_concat' before with rfl | ⟨front, c, rfl⟩
    · cases after with
      | nil => exact .inl rfl
      | cons d after =>
        obtain rfl := hafter d rfl
        exact .inr (.inl ⟨after, rfl⟩)
    · obtain rfl := hbefore c List.getLast?_concat
      cases after with
      | nil => exact .inr (.inr (.inl ⟨front, (List.append_nil _).symm⟩))
      | cons d after =>
        obtain rfl := hafter d rfl
        exact .inr (.inr (.inr ⟨front, after, by simp⟩))
  · have hdot : ∀ c ∈ ['.'].head?, c = '.' := by simp
    rintro (rfl | ⟨after, rfl⟩ | ⟨front, rfl⟩ | ⟨front, after, rfl⟩)
    · exact ⟨[], [], rfl, List.not_mem_nil, nofun, nofun⟩
    · exact ⟨[], '.' :: after, rfl, List.not_mem_nil, nofun, by simp⟩
    · exact ⟨front ++ ['.'], [], by simp, List.not_mem_nil, by simp, nofun⟩
    · exact ⟨front ++ ['.'], '.' :: after, by simp, List.not_mem_nil, by simp, by simp⟩

/-- The names of no field: the empty one, and those with a dot at an end or behind a dot. -/
theorem ofName?_eq_none_iff {name : String} :
    ofName? name = none ↔ name = "" ∨ ['.'] <+: name.toList ∨ ['.'] <:+ name.toList ∨
      ['.', '.'] <:+: name.toList := by
  have hempty : name = "" ↔ name.toList = [] := String.toList_eq_nil_iff.symm
  rw [ofName?_eq_none_iff_mem, hempty, ← exists_isPiece_nil_iff]
  constructor
  · intro h
    obtain ⟨first, others, hsplit⟩ := List.append_of_mem h
    exact ⟨_, isPiece_iff.mpr ⟨first, others, hsplit, rfl⟩⟩
  · rintro ⟨before, h⟩
    obtain ⟨first, others, hsplit, -⟩ := isPiece_iff.mp h
    exact hsplit ▸ List.mem_append_right first List.mem_cons_self

end FieldPath

/-! ## The words of a text -/

namespace Lexeme

/-- A word does not end in a dot. -/
theorem IsWordTail.getLast?_ne {cs : List Char} (h : IsWordTail cs) : cs.getLast? ≠ some '.' := by
  have hpart : ∀ {c : Char} {cs : List Char}, isWordPart c = true → cs.getLast? ≠ some '.' →
      (c :: cs).getLast? ≠ some '.' := by
    intro c cs hc hcs
    cases cs with
    | nil => rintro ⟨⟩; exact absurd hc (by decide)
    | cons d cs => rwa [List.getLast?_cons_cons]
  induction h with
  | nil => nofun
  | part hc _ ih => exact hpart hc ih
  | dot hc _ ih => rw [List.getLast?_cons_cons]; exact hpart hc ih

/-- A word has no dot next to another dot. -/
theorem IsWordTail.not_doubled {cs : List Char} (h : IsWordTail cs) : ¬ ['.', '.'] <:+: cs := by
  have hpart : ∀ {c : Char} {cs : List Char}, isWordPart c = true → ¬ ['.', '.'] <:+: cs →
      ¬ ['.', '.'] <:+: c :: cs := by
    intro c cs hc hcs hdots
    rcases List.infix_cons_iff.mp hdots with ⟨_, ⟨⟩⟩ | hdots
    · exact absurd hc (by decide)
    · exact hcs hdots
  induction h with
  | nil => rintro ⟨front, after, h⟩; simp at h
  | part hc _ ih => exact hpart hc ih
  | dot hc _ ih =>
    intro hdots
    rcases List.infix_cons_iff.mp hdots with ⟨_, ⟨⟩⟩ | hdots
    · exact absurd hc (by decide)
    · exact hpart hc ih hdots

/-- Every word is the name of a field. -/
theorem IsWord.exists_path {name : String} (h : IsWord name.toList) :
    ∃ path, FieldPath.ofName? name = some path := by
  refine Option.ne_none_iff_exists'.mp fun hnone ↦ ?_
  rw [FieldPath.ofName?_eq_none_iff, ← String.toList_eq_nil_iff] at hnone
  generalize name.toList = cs at h hnone
  obtain ⟨hc, htail⟩ := h
  have hword := IsWordTail.part (isWordPart_of_isWordStart hc) htail
  rcases hnone with hnone | ⟨_, ⟨⟩⟩ | ⟨front, hfront⟩ | hdots
  · cases hnone
  · exact absurd hc (by decide)
  · refine hword.getLast?_ne ?_
    rw [← hfront, List.getLast?_concat]
  · exact hword.not_doubled hdots

/-- Only a word is a field name, and it is the name. -/
theorem Spells.isWord {cs : List Char} {kind : Token.Kind} {barred : Char → Prop} {name : String}
    (h : Spells cs kind barred) (hkind : kind = .identifier name) :
    IsWord cs ∧ name = String.ofList cs := by
  cases h with
  | word hword =>
    rw [wordKind] at hkind
    split_ifs at hkind
    cases hkind
    exact ⟨hword, rfl⟩
  | operator | leftParen | rightParen | comparator | number | string => cases hkind

/-- No string is refused for a path. -/
theorem cause_of_stringScan {start : Nat} {b : StringBody} {e : SyntaxError}
    (h : (stringScan start b).outcome = .error e) : e.cause ≠ .invalidPath := by
  simp only [stringScan] at h
  split at h <;> cases h <;> rintro ⟨⟩

/-- No number is refused for a path. -/
theorem cause_of_numberScan {start : Nat} {cs : List Char} {e : SyntaxError}
    (h : (numberScan start cs).outcome = .error e) : e.cause ≠ .invalidPath := by
  rw [numberScan] at h
  generalize Integer.ofInt? (Nat.ofDigitChars 10 (cs.takeWhile Char.isDigit) 0) = value at h
  cases value with
  | some value => cases h
  | none => cases h; rintro ⟨⟩

/-- No lexical error is about a path. -/
theorem cause_ne_invalidPath {start : Nat} {cs : List Char} {e : SyntaxError}
    (h : (scan start cs).outcome = .error e) : e.cause ≠ .invalidPath := by
  revert h
  fun_cases scan start cs <;> intro h
  case case14 => cases h; rintro ⟨⟩
  case case15 => exact cause_of_stringScan h
  case case16 =>
    simp only [wordScan] at h
    split at h <;> cases h
    rintro ⟨⟩
  case case17 => exact cause_of_numberScan h
  case case18 => cases h; rintro ⟨⟩
  all_goals cases h

end Lexeme

namespace Lexer

/-- The field names that a lexer reads are names of fields. -/
theorem exists_path_of_read {l : Lexer} {t : Token} {name : String} (h : l.read.1 = .ok t)
    (hkind : t.kind = .identifier name) :
    ∃ path, FieldPath.ofName? name = some path ∧ path.name = t.lexeme := by
  rcases cases_of_read (Prod.ext h rfl) with ⟨rfl, -⟩ | ⟨s, barred, rfl, -, hspells, -⟩
  · cases hkind
  · obtain ⟨hword, rfl⟩ := hspells.isWord hkind
    rw [← String.toList_ofList (l := s.lexeme)] at hword
    obtain ⟨path, hpath⟩ := hword.exists_path
    exact ⟨path, hpath, FieldPath.name_of_ofName? hpath⟩

theorem cause_of_read {l : Lexer} {e : SyntaxError} (h : l.read.1 = .error e) :
    e.cause ≠ .invalidPath := by
  cases hk : l.scan.outcome with
  | ok kind => rw [read, hk] at h; cases h
  | error e' =>
    rw [read, hk] at h
    cases h
    exact Lexeme.cause_ne_invalidPath hk

end Lexer

/-! ## The parser -/

/-- If the token is a field name, it names a field. -/
def Token.NamesPath (t : Token) : Prop :=
  ∀ name, t.kind = .identifier name → ∃ path, FieldPath.ofName? name = some path

theorem Lexer.namesPath_of_read {l : Lexer} {t : Token} (h : l.read.1 = .ok t) : t.NamesPath :=
  fun _ hkind ↦
    let ⟨path, hpath, _⟩ := exists_path_of_read h hkind
    ⟨path, hpath⟩

/-- A token that names a field is not refused for its name. -/
theorem Grammar.cause_of_reject {g : Grammar} {s : State} {t : Token} {e : SyntaxError}
    (ht : t.NamesPath) (h : g.step s t = .reject e) : e.cause ≠ .invalidPath := by
  obtain ⟨awaiting, l, enclosing⟩ := s
  cases awaiting with
  | operand =>
    simp only [step, stepOperand, refuse] at h
    split at h
    · cases h
    · cases h
    · rename_i name hkind
      obtain ⟨path, hpath⟩ := ht name hkind
      rw [hpath] at h
      cases h
    · cases h; rintro ⟨⟩
    · cases h; rintro ⟨⟩
  | comparator path =>
    simp only [step, stepComparator, refuse] at h
    split at h <;> cases h
    rintro ⟨⟩
  | literal path op =>
    simp only [step, stepLiteral, refuse] at h
    split at h
    · cases h
    · split at h <;> cases h
      rintro ⟨⟩
    · cases h; rintro ⟨⟩
  | operator operand =>
    simp only [step] at h
    split at h
    · cases h
    · simp only [stepClosing, refuse] at h
      split at h <;> split at h <;> cases h <;> rintro ⟨⟩

namespace Parser

variable {p p' : Parser}

theorem namesPath_ofLexer {l : Lexer} (h : ofLexer l = .ok p) : p.current.NamesPath := by
  rw [ofLexer] at h
  cases hread : l.read.1 with
  | error e => rw [hread] at h; cases h
  | ok t =>
    rw [hread] at h
    cases h
    exact Lexer.namesPath_of_read hread

/-- Asking for another token puts one from the lexer in front, or leaves the one that is there. -/
theorem namesPath_consume (h : p.current.NamesPath) : p.consume.2.current.NamesPath := by
  cases hanswer : p.answer with
  | error e => rw [consume_of_answer_error hanswer]; exact h
  | ok t => rw [consume_of_answer_ok hanswer]; exact Lexer.namesPath_of_read hanswer

/-- A call ends with a token in front that names a field if it is a field name, and it does not fail
on the name of a field. -/
theorem namesPath_run (h : p.current.NamesPath) (g : Grammar) (s : Grammar.State) :
    (p.run g s).2.current.NamesPath ∧
      ∀ e, (p.run g s).1 = .error e → e.cause ≠ .invalidPath := by
  fun_induction run g s p with
  | case1 s p e hstep =>
    refine ⟨h, ?_⟩
    rintro _ ⟨⟩
  | case2 s p e hstep =>
    refine ⟨h, ?_⟩
    rintro _ ⟨⟩
    exact Grammar.cause_of_reject h hstep
  | case3 s p next hstep e p' hconsume =>
    have hnames := namesPath_consume h
    rw [hconsume] at hnames
    refine ⟨hnames, ?_⟩
    rintro _ ⟨⟩
    exact Lexer.cause_of_read (answer_of_consume_error hconsume)
  | case4 s p next hstep p' hconsume hlt ih =>
    have hnames := namesPath_consume h
    rw [hconsume] at hnames
    exact ih hnames

/-- No call fails on the name of a field. -/
theorem cause_ne_of_mem_outcomes (h : p.current.NamesPath) {gs : List Grammar}
    {r : Logged SyntaxError Expr} (hr : r ∈ p.outcomes gs) {e : SyntaxError}
    (he : r.result = .error e) : e.cause ≠ .invalidPath := by
  induction gs generalizing p with
  | nil => cases hr
  | cons g gs ih =>
    obtain ⟨hnames, hcause⟩ := namesPath_run h g .initial
    rcases List.mem_cons.mp hr with rfl | hr
    · rw [result_parse] at he
      exact hcause e he
    · rw [parse_snd] at hr
      exact ih hnames hr

end Parser

/-- No other cause is put into the words for a name that is no path. -/
theorem SyntaxError.Cause.message_eq_iff {cause : SyntaxError.Cause} :
    cause.message = Cause.invalidPath.message ↔ cause = .invalidPath := by
  have hfront : ∀ front rest : String, front ++ rest = Cause.invalidPath.message →
      front.toList <+: Cause.invalidPath.message.toList :=
    fun front rest h ↦ ⟨rest.toList, by rw [← String.toList_append, h]⟩
  refine ⟨fun h ↦ ?_, fun h ↦ h ▸ rfl⟩
  cases cause with
  | invalidPath => rfl
  | misplaced wanted found =>
    change "expected " ++ wanted.message ++ ", found " ++ found.inWords = _ at h
    rw [String.append_assoc, String.append_assoc] at h
    exact absurd (hfront _ _ h) (by decide +kernel)
  | trailing found =>
    change "unexpected " ++ found.inWords ++ " after complete expression" = _ at h
    rw [String.append_assoc] at h
    exact absurd (hfront _ _ h) (by decide +kernel)
  | unrecognized c =>
    change "unrecognized character '" ++ c.toString ++ "'" = _ at h
    rw [String.append_assoc] at h
    exact absurd (hfront _ _ h) (by decide +kernel)
  | invalidEscape c =>
    change "invalid escape sequence '\\" ++ c.toString ++ "'" = _ at h
    rw [String.append_assoc] at h
    exact absurd (hfront _ _ h) (by decide +kernel)
  | emptySegment | doubledQuote | unterminatedString | numberTooLarge | loneExclamation
  | patternRequired => exact absurd h (by decide +kernel)

namespace Parser

/-- The error `e` comes of a parser on `l` when it is built, or when it is called as in `gs`. -/
def FailsWith (l : Lexer) (gs : List Grammar) (e : SyntaxError) : Prop :=
  session l gs = .error e ∨
    ∃ outcomes, session l gs = .ok outcomes ∧ ∃ r ∈ outcomes, r.result = .error e

/-- Nothing that is done with a parser fails on the name of a field. -/
theorem FailsWith.message_ne {l : Lexer} {gs : List Grammar} {e : SyntaxError}
    (h : FailsWith l gs e) : e.cause.message ≠ SyntaxError.Cause.invalidPath.message := by
  refine mt SyntaxError.Cause.message_eq_iff.mp ?_
  rw [FailsWith, session] at h
  cases hp : ofLexer l with
  | error e' =>
    rw [hp] at h
    rcases h with h | ⟨outcomes, h, -⟩
    · cases h
      cases hread : l.read.1 with
      | error e' =>
        rw [ofLexer, hread] at hp
        cases hp
        exact Lexer.cause_of_read hread
      | ok t => rw [ofLexer, hread] at hp; cases hp
    · cases h
  | ok p =>
    rw [hp] at h
    rcases h with h | ⟨outcomes, h, r, hr, he⟩
    · cases h
    · cases h
      exact cause_ne_of_mem_outcomes (namesPath_ofLexer hp) hr he

end Parser

/-! ## Names and paths -/

namespace FieldPath

/-- **Names and paths correspond.**  The names of no field are the empty one and those with a dot at
an end or behind a dot.  Any other name is that of one path, whose segments are its pieces in order,
and a path is read back from its name when no segment holds a dot.  The words of a text are names of
fields, so that no parser fails for want of a path. -/
theorem names_correspond :
    (∀ name, ofName? name = none ↔ name = "" ∨ ['.'] <+: name.toList ∨ ['.'] <:+ name.toList ∨
      ['.', '.'] <:+: name.toList) ∧
    (∀ name path, ofName? name = some path → path.name = name ∧
      ∀ before piece, IsPiece name.toList before piece ↔
        ∃ first segment others, path.segments = first ++ segment :: others ∧
          before = first.flatMap (·.toList ++ ['.']) ∧ piece = segment.toList) ∧
    (∀ path : FieldPath, (∀ s ∈ path.segments, '.' ∉ s.toList) → ofName? path.name = some path) ∧
    (∀ (l : Lexer) (t : Token) (name : String), l.read.1 = .ok t → t.kind = .identifier name →
      ∃ path, ofName? name = some path ∧ path.name = t.lexeme) ∧
    ∀ (l : Lexer) (gs : List Grammar) (e : SyntaxError), Parser.FailsWith l gs e →
      e.cause.message ≠ SyntaxError.Cause.invalidPath.message := by
  refine ⟨fun name ↦ ofName?_eq_none_iff, fun name path h ↦ ?_, fun path ↦ ofName?_name,
    fun l t name ↦ Lexer.exists_path_of_read, fun l gs e ↦ Parser.FailsWith.message_ne⟩
  exact ⟨name_of_ofName? h, fun before piece ↦ isPiece_iff_segments h⟩

/-- The word in front of the text names the field whose second segment stands behind the dot.  With
a second dot the lexer refuses the name, before a path is looked for. -/
theorem names_correspond_nested :
    (Lexer.ofText "data.first_name = 1").read.1 =
        .ok ⟨.identifier "data.first_name", "data.first_name", 0⟩ ∧
      (∃ path, ofName? "data.first_name" = some path ∧ path.name = "data.first_name" ∧
        IsPiece "data.first_name".toList "data.".toList "first_name".toList ∧
        (∀ s ∈ path.segments, '.' ∉ s.toList) ∧ ofName? path.name = some path) ∧
      Parser.FailsWith (Lexer.ofText "data..first_name = 1") [.query] ⟨.emptySegment, 4⟩ ∧
      SyntaxError.Cause.emptySegment.message ≠ SyntaxError.Cause.invalidPath.message := by
  obtain ⟨-, hpieces, hread_back, hwords, hfails⟩ := names_correspond
  have hread : (Lexer.ofText "data.first_name = 1").read.1 =
      .ok ⟨.identifier "data.first_name", "data.first_name", 0⟩ := by decide +kernel
  obtain ⟨path, hpath, hname⟩ := hwords _ _ _ hread rfl
  have hsegments : path.segments = ["data", "first_name"] :=
    (ofSegments?_eq_some.mp hpath).trans (by decide +kernel)
  have hdots : ∀ s ∈ path.segments, '.' ∉ s.toList := by
    rw [hsegments]
    decide
  have hrefused : Parser.ofLexer (Lexer.ofText "data..first_name = 1") =
      .error ⟨.emptySegment, 4⟩ := by decide +kernel
  have hsession : Parser.FailsWith (Lexer.ofText "data..first_name = 1") [.query]
      ⟨.emptySegment, 4⟩ := .inl (by rw [Parser.session, hrefused]; rfl)
  refine ⟨hread, ⟨path, hpath, hname, ((hpieces _ _ hpath).2 _ _).mpr ?_, hdots,
    hread_back path hdots⟩, hsession, hfails _ _ _ hsession⟩
  exact ⟨["data"], "first_name", [], hsegments, by decide +kernel, rfl⟩

end FieldPath
end RecordQuery
