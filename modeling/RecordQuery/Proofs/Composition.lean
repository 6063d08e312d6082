import RecordQuery.Proofs.Preparation
import RecordQuery.Proofs.Recognition
import RecordQuery.Proofs.Segmentation
import RecordQuery.Proofs.Substitution

/-!
# Queries made of queries

A host that has two texts from its users may put each in parentheses and a connective between them.
What comes of this is the connective of the two queries, and neither text can reach into the other.

* *Lexemes.*  A closing parenthesis may stand behind every lexeme, so a text in parentheses is read
  as it is read alone, whatever it ends with (`Segmented.parenthesized`).
* *The tree.*  The trees of the two texts stand as groupings under the connective, and a grouping
  may stand anywhere (`Grammar.admits_logical_grouping`).
* *The predicate.*  The literals of the second query are bound behind those of the first.  A tree
  bound from a later placeholder on has the same predicate with its placeholders counted on
  (`Expr.bind_add`).

`prepareText_parenthesized` puts these together.
-/

set_option autoImplicit false

namespace RecordQuery

open Text

/-! ## Texts in parentheses -/

/-- A closing parenthesis may stand behind every lexeme. -/
theorem Lexeme.Spells.not_barred_rightParen {cs : List Char} {kind : Token.Kind}
    {barred : Char → Prop} (h : Lexeme.Spells cs kind barred) : ¬ barred ')' := by
  cases h with
  | operator | leftParen | rightParen => exact id
  | comparator => exact fun hbarred ↦ absurd hbarred.2 (by decide)
  | number | string | word => decide

/-- A text in parentheses is read as it is read alone.  The blanks it ends with belong to the
closing parenthesis then. -/
theorem Segmented.parenthesized {cs rest : List Char} {segments segments' : List Segment}
    (h : Segmented cs segments) (h' : Segmented rest segments') (before : List Char)
    (hbefore : ∀ c ∈ before, isBlank c = true) :
    ∃ blanks, cs = segments.flatMap Segment.chars ++ blanks ∧
      Segmented (before ++ '(' :: (cs ++ ')' :: rest)) (⟨before, ['('], .leftParen⟩ ::
        (segments ++ ⟨blanks, [')'], .rightParen⟩ :: segments')) := by
  have happend : Segmented cs (segments ++ []) := by rwa [List.append_nil]
  obtain ⟨blanks, rfl, hnil, hexchange⟩ := happend.exchange
  have hblanks : ∀ c ∈ blanks, isBlank c = true := by
    cases hnil with
    | nil hblanks => exact hblanks
  have hclosing : Segmented (blanks ++ [')'] ++ rest)
      (⟨blanks, [')'], .rightParen⟩ :: segments') :=
    .cons (s := ⟨blanks, [')'], .rightParen⟩) hblanks .rightParen (fun _ _ ↦ id) h'
  have hinner := hexchange hclosing ?_
  · refine ⟨blanks, rfl, ?_⟩
    have hopening := Segmented.cons (s := ⟨before, ['('], .leftParen⟩) hbefore .leftParen
      (fun _ _ ↦ id) hinner
    simpa [Segment.chars] using hopening
  · intro s _ barred hbarred c hc
    -- what stands behind the text is one of its blanks or the closing parenthesis
    cases blanks with
    | nil =>
      cases hc
      exact hbarred.not_barred_rightParen
    | cons b blanks =>
      cases hc
      exact hbarred.not_barred_of_isBlank (hblanks _ List.mem_cons_self)

/-- The keyword of a connective in a query. -/
def Connective.written : Connective → String
  | and => "AND"
  | or => "OR"

/-- A connective is a word. -/
theorem Connective.spells_written (c : Connective) :
    Lexeme.Spells c.written.toList (.connective c)
      fun d ↦ Lexeme.isWordPart d = true ∨ d = '.' := by
  cases c with
  | and =>
    have hword : Lexeme.IsWord ['A', 'N', 'D'] :=
      ⟨by decide, .part (by decide) (.part (by decide) .nil)⟩
    exact .word hword
  | or =>
    have hword : Lexeme.IsWord ['O', 'R'] := ⟨by decide, .part (by decide) .nil⟩
    exact .word hword

namespace Grammar

/-! ## Their trees -/

/-- A text is a sentence when its segments write a tree of the grammar. -/
theorem parse_eq_ok_iff_segments {g : Grammar} {text : String} {e : Expr} :
    (g.parse text).result = .ok e ↔ ∃ segments, Segmented text.toList segments ∧
      (Segment.tokens 0 segments).map Token.symbol = e.symbols ∧ g.Admits e := by
  rw [parse_eq_ok_iff]
  constructor
  · rintro ⟨tokens, htokens, hsymbols, hadmits⟩
    obtain ⟨segments, hsegments, rfl⟩ := Lexer.yields_iff.mp htokens
    exact ⟨segments, hsegments, hsymbols, hadmits⟩
  · rintro ⟨segments, hsegments, hsymbols, hadmits⟩
    exact ⟨_, Lexer.yields_iff.mpr ⟨segments, hsegments, rfl⟩, hsymbols, hadmits⟩

/-- A text is a query when its lexemes are those of the tree of a query. -/
theorem query_parse_eq_ok_iff {text : String} {e : Expr} :
    (query.parse text).result = .ok e ↔
      ∃ segments, Segmented text.toList segments ∧ segments.map (·.kind) = e.kinds ∧
        query.Admits e := by
  rw [parse_eq_ok_iff_segments]
  refine exists_congr fun segments ↦ and_congr_right fun _ ↦ and_congr_left fun hadmits ↦ ?_
  rw [← kinds_eq_iff hadmits, Segment.map_kind_tokens]

/-- Groupings may stand on both sides of a connective. -/
theorem admits_logical_grouping (c : Connective) {left right : Expr} (hl : query.Admits left)
    (hr : query.Admits right) : query.Admits (.logical c left.grouping right.grouping) := by
  refine ⟨rfl, hl, hr, ?_⟩
  cases c with
  | and => exact ⟨rfl, rfl, rfl⟩
  | or => exact rfl

/-- A query in parentheses is a grouping. -/
theorem parse_parenthesized {text : String} {e : Expr} (h : (query.parse text).result = .ok e) :
    (query.parse ("(" ++ text ++ ")")).result = .ok e.grouping := by
  obtain ⟨segments, hsegments, hkinds, hadmits⟩ := query_parse_eq_ok_iff.mp h
  have hend : Segmented [] [] := .nil nofun
  obtain ⟨blanks, -, hgrouping⟩ := hsegments.parenthesized hend [] nofun
  have htext : ("(" ++ text ++ ")").toList = [] ++ '(' :: (text.toList ++ [')']) := by simp
  rw [← htext] at hgrouping
  refine query_parse_eq_ok_iff.mpr ⟨_, hgrouping, ?_, hadmits⟩
  simp [Expr.kinds_grouping, hkinds]

/-- Two queries in parentheses with a connective between them are its operands. -/
theorem parse_connected (c : Connective) {text₁ text₂ : String} {e₁ e₂ : Expr}
    (h₁ : (query.parse text₁).result = .ok e₁) (h₂ : (query.parse text₂).result = .ok e₂) :
    (query.parse ("(" ++ text₁ ++ ") " ++ c.written ++ " (" ++ text₂ ++ ")")).result =
      .ok (.logical c e₁.grouping e₂.grouping) := by
  obtain ⟨segments₁, hsegments₁, hkinds₁, hadmits₁⟩ := query_parse_eq_ok_iff.mp h₁
  obtain ⟨segments₂, hsegments₂, hkinds₂, hadmits₂⟩ := query_parse_eq_ok_iff.mp h₂
  have hspace : ∀ d ∈ [' '], isBlank d = true := by
    intro d hd
    rw [List.mem_singleton.mp hd]
    decide
  have hend : Segmented [] [] := .nil nofun
  obtain ⟨blanks₂, -, hright⟩ := hsegments₂.parenthesized hend [' '] hspace
  have hconnective := Segmented.cons (s := ⟨[' '], c.written.toList, .connective c⟩) hspace
    c.spells_written (by rintro _ ⟨⟩; decide) hright
  obtain ⟨blanks₁, -, hleft⟩ := hsegments₁.parenthesized hconnective [] nofun
  have htext : ("(" ++ text₁ ++ ") " ++ c.written ++ " (" ++ text₂ ++ ")").toList =
      [] ++ '(' :: (text₁.toList ++ ')' :: (Segment.chars ⟨[' '], c.written.toList,
        .connective c⟩ ++ ([' '] ++ '(' :: (text₂.toList ++ [')'])))) := by
    simp [Segment.chars]
  rw [← htext] at hleft
  refine query_parse_eq_ok_iff.mpr ⟨_, hleft, ?_, admits_logical_grouping c hadmits₁ hadmits₂⟩
  simp [Expr.kinds_logical, Expr.kinds_grouping, hkinds₁, hkinds₂]

end Grammar

/-! ## Their predicates -/

/-- The predicate with its placeholders counted on by `n`. -/
def Predicate.shift (n : Nat) : Predicate → Predicate
  | comparison path op i => comparison path op (i + n)
  | logical connective left right => logical connective (left.shift n) (right.shift n)

/-- From a later placeholder on, a tree has the same literals and the same predicate but for its
placeholders. -/
theorem Expr.bind_add {e : Expr} {first : Nat} {p : Predicate} {values : List Literal} (n : Nat)
    (h : e.bind first = .ok (p, values)) : e.bind (first + n) = .ok (p.shift n, values) := by
  induction e generalizing first p values with
  | comparison path op value => cases h; rfl
  | logical connective left right ihl ihr =>
    obtain ⟨l, leftValues, r, rightValues, hl, hr, rfl, rfl⟩ := bind_logical h
    have hright := ihr hr
    rw [Nat.add_right_comm] at hright
    exact bind_logical_of_bind connective (ihl hl) hright
  | grouping inner ih => exact ih h
  | number | string | field | arithmetic => cases h

/-- The query of two groupings under a connective. -/
theorem Expr.prepare_logical_grouping (c : Connective) {e₁ e₂ : Expr} {q₁ q₂ : PreparedQuery}
    (h₁ : e₁.prepare.result = .ok q₁) (h₂ : e₂.prepare.result = .ok q₂) :
    ∃ q, (logical c e₁.grouping e₂.grouping).prepare.result = .ok q ∧
      q.predicate = .logical c q₁.predicate (q₂.predicate.shift q₁.bindings.length) ∧
        q.bindings = q₁.bindings ++ q₂.bindings := by
  have hleft : e₁.grouping.bind 0 = .ok (q₁.predicate, q₁.bindings) := bind_of_prepare h₁
  have hright : e₂.grouping.bind (0 + q₁.bindings.length) =
      .ok (q₂.predicate.shift q₁.bindings.length, q₂.bindings) :=
    bind_add q₁.bindings.length (bind_of_prepare h₂)
  exact prepare_of_bind (bind_logical_of_bind c hleft hright)

/-! ## Their texts -/

/-- **Queries combine as texts**: two queries in parentheses with a connective between them are the
query with that connective at its root.  The bindings of the second one follow those of the first,
and its placeholders are counted on accordingly.  Parentheses alone change nothing. -/
theorem prepareText_parenthesized {text₁ text₂ : String} {q₁ q₂ : PreparedQuery}
    (h₁ : (prepareText text₁).result = .ok q₁) (h₂ : (prepareText text₂).result = .ok q₂) :
    (∃ q, (prepareText ("(" ++ text₁ ++ ") AND (" ++ text₂ ++ ")")).result = .ok q ∧
      q.predicate = .logical .and q₁.predicate (q₂.predicate.shift q₁.bindings.length) ∧
        q.bindings = q₁.bindings ++ q₂.bindings) ∧
    (∃ q, (prepareText ("(" ++ text₁ ++ ") OR (" ++ text₂ ++ ")")).result = .ok q ∧
      q.predicate = .logical .or q₁.predicate (q₂.predicate.shift q₁.bindings.length) ∧
        q.bindings = q₁.bindings ++ q₂.bindings) ∧
    (prepareText ("(" ++ text₁ ++ ")")).result = (prepareText text₁).result := by
  obtain ⟨e₁, hparse₁, hprepare₁⟩ := prepareText_eq_ok_iff.mp h₁
  obtain ⟨e₂, hparse₂, hprepare₂⟩ := prepareText_eq_ok_iff.mp h₂
  have hconnected : ∀ c : Connective, ∃ q,
      (prepareText ("(" ++ text₁ ++ ") " ++ c.written ++ " (" ++ text₂ ++ ")")).result = .ok q ∧
        q.predicate = .logical c q₁.predicate (q₂.predicate.shift q₁.bindings.length) ∧
          q.bindings = q₁.bindings ++ q₂.bindings := by
    intro c
    obtain ⟨q, hq, hfields⟩ := Expr.prepare_logical_grouping c hprepare₁ hprepare₂
    exact ⟨q, prepareText_eq_ok_iff.mpr ⟨_, Grammar.parse_connected c hparse₁ hparse₂, hq⟩, hfields⟩
  refine ⟨?_, ?_, ?_⟩
  · have hand := hconnected .and
    simpa [Connective.written, String.append_assoc] using hand
  · have hor := hconnected .or
    simpa [Connective.written, String.append_assoc] using hor
  · rw [h₁]
    exact prepareText_eq_ok_iff.mpr ⟨_, Grammar.parse_parenthesized hparse₁, hprepare₁⟩

/-- The weaker connective stays inside its parentheses, and so do those of the string. -/
theorem prepareText_parenthesized_or : ∃ q,
    (prepareText "(a=1 OR b=\"x) OR (\") AND (c>2)").result = .ok q ∧
      q.predicate = .logical .and
        (.logical .or (.comparison ⟨["a"], by decide, by decide⟩ .equal 0)
          (.comparison ⟨["b"], by decide, by decide⟩ .equal 1))
        (.comparison ⟨["c"], by decide, by decide⟩ .greaterThan 2) ∧
      q.bindings = [.integer 1, .string "x) OR (", .integer 2] := by
  let q₁ : PreparedQuery :=
    ⟨.logical .or (.comparison ⟨["a"], by decide, by decide⟩ .equal 0)
      (.comparison ⟨["b"], by decide, by decide⟩ .equal 1),
      [.integer 1, .string "x) OR ("], by decide⟩
  let q₂ : PreparedQuery :=
    ⟨.comparison ⟨["c"], by decide, by decide⟩ .greaterThan 0, [.integer 2], by decide⟩
  have h₁ : (prepareText "a=1 OR b=\"x) OR (\"").result = .ok q₁ := by decide +kernel
  have h₂ : (prepareText "c>2").result = .ok q₂ := by decide +kernel
  obtain ⟨hand, -⟩ := prepareText_parenthesized h₁ h₂
  exact hand

end RecordQuery
