import RecordQuery.Proofs.Preparation
import RecordQuery.Proofs.Recognition
import RecordQuery.Proofs.Segmentation
import RecordQuery.Proofs.Sql.Lexing
import RecordQuery.Task
import Mathlib.Data.List.Basic

/-!
# Literals are opaque

What a literal says has no influence on the query around it.  A literal of a text may be written as
any string instead, be it made of quotes, backslashes or whole queries: the text remains a query,
and of the prepared query only one binding changes.

The reasons are found in the three stages that a text goes through.

* *Lexemes.*  A string is read up to its own closing quote, whatever it holds.  Next to a literal
  stands no other string, so the lexemes around it are read as before, blanks between them or not
  (`Lexer.yields_quoted`).
* *The tree.*  `Expr.Context` is a tree without one of its literals.  Every literal token of a query
  is the one that is missing in such a context (`exists_context`), and the context with a string in
  that place is a query too (`admits_plug`).
* *The predicate.*  Binding a tree looks at its context alone (`bind_plug`), and the literals of a
  query are bound in the order of their tokens (`bindings_of_prepare`).

`prepareText_quoted` puts these together.
-/

set_option autoImplicit false

namespace RecordQuery

/-! ## A string in place of a lexeme -/

/-- The segment with a string in place of its lexeme. -/
def Segment.quoted (s : Segment) (text : List Char) : Segment :=
  ⟨s.blanks, Lexeme.quoted text, .string (String.ofList text)⟩

namespace Segmented

/-- Behind some of its segments, a text goes on with the others.  It may as well go on with other
segments, as long as these start with a character that may stand there. -/
theorem exchange {pre segments : List Segment} {cs : List Char}
    (h : Segmented cs (pre ++ segments)) :
    ∃ rest, cs = pre.flatMap Segment.chars ++ rest ∧ Segmented rest segments ∧
      ∀ {rest' : List Char} {segments' : List Segment}, Segmented rest' segments' →
        (∀ s ∈ pre.getLast?, ∀ barred, Lexeme.Spells s.lexeme s.kind barred →
          ∀ c ∈ rest'.head?, ¬ barred c) →
        Segmented (pre.flatMap Segment.chars ++ rest') (pre ++ segments') := by
  induction pre generalizing cs with
  | nil => exact ⟨cs, rfl, h, fun h' _ ↦ h'⟩
  | cons s pre ih =>
    cases h with
    | cons hblanks hspells hrest h =>
      obtain ⟨rest, rfl, hsegments, hexchange⟩ := ih h
      refine ⟨rest, by simp, hsegments, fun {rest'} segments' h' hlast ↦ ?_⟩
      rw [List.flatMap_cons, List.append_assoc]
      cases pre with
      | nil => exact .cons hblanks hspells (hlast s rfl _ hspells) h'
      | cons r pre =>
        -- what stands behind `s` is still the front of the next segment
        have hne : ((r :: pre).flatMap Segment.chars) ≠ [] := by
          rw [List.flatMap_cons]
          exact List.append_ne_nil_of_left_ne_nil h.chars_ne_nil _
        rw [List.head?_append_of_ne_nil _ hne] at hrest
        refine .cons hblanks hspells ?_ (hexchange h' hlast)
        rwa [List.head?_append_of_ne_nil _ hne]

/-- A text starts with a quote only when it starts with a string. -/
theorem head?_ne_quote {cs : List Char} {segments : List Segment} (h : Segmented cs segments)
    (hkind : ∀ s ∈ segments.head?, ∀ text, s.kind ≠ .string text) : cs.head? ≠ some '"' := by
  intro hquote
  cases h with
  | nil hblanks => exact absurd (hblanks '"' (List.mem_of_head? hquote)) (by decide)
  | @cons s _ rest _ hblanks hspells =>
    cases hs : s.blanks with
    | nil =>
      obtain ⟨c, ds, hlexeme, -⟩ := hspells.exists_cons
      have hhead : s.lexeme.head? = some '"' := by
        rw [← hquote, Segment.chars, hs, hlexeme]
        rfl
      obtain ⟨text, htext⟩ := hspells.exists_string hhead
      exact hkind s rfl text htext
    | cons c blanks =>
      rw [Segment.chars, hs] at hquote
      cases hquote
      exact absurd (hblanks '"' (hs ▸ List.mem_cons_self)) (by decide)

/-- A segment that is not next to a string may be exchanged for any string. -/
theorem exchange_quoted {pre post : List Segment} {s : Segment} {cs : List Char}
    (h : Segmented cs (pre ++ s :: post))
    (hpre : ∀ r ∈ pre.getLast?, ∀ text, r.kind ≠ .string text)
    (hpost : ∀ r ∈ post.head?, ∀ text, r.kind ≠ .string text) :
    ∃ rest, cs = pre.flatMap Segment.chars ++ (s.chars ++ rest) ∧ ∀ text : List Char,
      Segmented (pre.flatMap Segment.chars ++ ((s.quoted text).chars ++ rest))
        (pre ++ s.quoted text :: post) := by
  obtain ⟨rest, rfl, hsegments, hexchange⟩ := h.exchange
  cases hsegments with
  | @cons _ _ rest _ hblanks hspells hrest hpostSegments =>
    refine ⟨rest, rfl, fun text ↦ hexchange ?_ ?_⟩
    · have hquote : ∀ c ∈ rest.head?, ¬ c = '"' := by
        rintro _ hc rfl
        exact hpostSegments.head?_ne_quote hpost hc
      have hstring : Lexeme.Spells (s.quoted text).lexeme (s.quoted text).kind fun c ↦ c = '"' :=
        .string text
      exact .cons hblanks hstring hquote hpostSegments
    · intro r hr barred hbarred c hc
      rw [Segment.chars, Segment.quoted, Lexeme.quoted] at hc
      cases hs : s.blanks with
      | nil =>
        rw [hs] at hc
        cases hc
        exact hbarred.not_barred_quote (hpre r hr)
      | cons b blanks =>
        rw [hs] at hc
        cases hc
        exact hbarred.not_barred_of_isBlank (hblanks _ (hs ▸ List.mem_cons_self))

end Segmented

/-- A token that is not next to a string may be written as any string instead.  The lexer finds the
closing quote whatever stands before it, and goes on as it did. -/
theorem Lexer.yields_quoted {text : String} {before after : List Token} {t : Token}
    (h : (ofText text).Yields (before ++ t :: after))
    (hbefore : ∀ kind ∈ (before.map (·.kind)).getLast?, ∀ s, kind ≠ .string s)
    (hafter : ∀ kind ∈ (after.map (·.kind)).head?, ∀ s, kind ≠ .string s) :
    ∃ front back : String, text = front ++ t.lexeme ++ back ∧ front.length = t.offset ∧
      ∀ s : String, ∃ tokens,
        (ofText (front ++ String.ofList (Lexeme.quoted s.toList) ++ back)).Yields tokens ∧
          tokens.map (·.kind) = before.map (·.kind) ++ .string s :: after.map (·.kind) := by
  obtain ⟨segments, hsegments, htokens⟩ := yields_iff.mp h
  obtain ⟨pre, s, post, rfl, hpre, hpost, rfl⟩ := Segment.exists_of_tokens_eq htokens.symm
  rw [hpre] at hbefore
  rw [hpost] at hafter
  obtain ⟨rest, htext, hexchange⟩ := hsegments.exchange_quoted
    (fun r hr ↦ hbefore r.kind (by rw [List.getLast?_map]; exact Option.mem_map_of_mem _ hr))
    (fun r hr ↦ hafter r.kind (by rw [List.head?_map]; exact Option.mem_map_of_mem _ hr))
  refine ⟨String.ofList (pre.flatMap Segment.chars ++ s.blanks), String.ofList rest, ?_, ?_,
    fun content ↦ ?_⟩
  · rw [← String.ofList_toList (s := text), htext]
    simp [Segment.token, Segment.chars, String.ofList_append, String.append_assoc]
  · simp [Segment.token]
  · have hchars : (String.ofList (pre.flatMap Segment.chars ++ s.blanks) ++
        String.ofList (Lexeme.quoted content.toList) ++ String.ofList rest).toList =
          pre.flatMap Segment.chars ++ ((s.quoted content.toList).chars ++ rest) := by
      simp [Segment.quoted, Segment.chars]
    refine ⟨_, yields_iff.mpr ⟨_, hchars ▸ hexchange content.toList, rfl⟩, ?_⟩
    rw [Segment.map_kind_tokens, hpre, hpost, List.map_append, List.map_cons, Segment.quoted,
      String.ofList_toList]

/-! ## Literals among tokens -/

/-- The literal that a token is. -/
def Token.Kind.literal? : Token.Kind → Option Literal
  | string text => some (.string text)
  | number value => some (.integer value)
  | _ => none

theorem Token.Kind.literal?_eq_some_iff {kind : Token.Kind} {v : Literal} :
    kind.literal? = some v ↔ kind = v.kind := by
  constructor
  · intro h
    cases kind <;> cases h <;> rfl
  · rintro rfl
    cases v <;> rfl

/-- A token that is no literal does not have the kind of one. -/
theorem Token.Kind.ne_of_literal?_eq_none {kind : Token.Kind} (h : kind.literal? = none)
    (v : Literal) : kind ≠ v.kind := by
  rintro rfl
  cases v <;> cases h

theorem Literal.kind_injective {v w : Literal} (h : v.kind = w.kind) : v = w := by
  cases v <;> cases w <;> cases h <;> rfl

namespace Grammar

/-- Every leaf of a query is a comparison. -/
theorem offender?_of_admits {e : Expr} (h : query.Admits e) : e.offender? = none := by
  induction e, h using query_induction with
  | comparison => rfl
  | logical connective left right _ _ _ ihl ihr =>
    rw [Expr.offender?_logical, ihl, ihr]
    rfl
  | grouping inner _ ih => exact ih

/-- The literals of a query are its literal tokens, in order. -/
theorem literals_of_admits {e : Expr} (h : query.Admits e) :
    e.literals = e.kinds.filterMap Token.Kind.literal? := by
  induction e, h using query_induction with
  | comparison path op value _ => cases value <;> rfl
  | logical connective left right _ _ _ ihl ihr =>
    rw [Expr.literals_logical, Expr.kinds_logical, List.filterMap_append, ihl, ihr]
    rfl
  | grouping inner _ ih =>
    have hinner : inner.grouping.literals = inner.literals := rfl
    rw [hinner, Expr.kinds_grouping, ih]
    simp [List.filterMap_cons, Token.Kind.literal?]

/-- The literal tokens of a query are its bindings. -/
theorem bind_of_admits {e : Expr} (h : query.Admits e) (first : Nat) :
    ∃ p, e.bind first = .ok (p, e.kinds.filterMap Token.Kind.literal?) := by
  rw [← literals_of_admits h]
  exact Expr.bind_of_leaves (offender?_of_admits h) first

end Grammar

/-! ## Trees without one of their literals -/

/-- Of two ways to split a list at different elements, one comes before the other. -/
theorem cases_of_append_cons_eq {α : Type} {xs ys before after : List α} {x y : α} (hne : x ≠ y)
    (h : xs ++ x :: ys = before ++ y :: after) :
    (∃ between, xs = before ++ y :: between ∧ after = between ++ x :: ys) ∨
      ∃ between, before = xs ++ x :: between ∧ ys = between ++ y :: after := by
  rcases List.append_eq_append_iff.mp h with ⟨as, rfl, hrest⟩ | ⟨as, rfl, hrest⟩
  · rcases List.cons_eq_append_iff.mp hrest with ⟨rfl, hcons⟩ | ⟨between, rfl, rfl⟩
    · exact absurd (List.cons.inj hcons).1.symm hne
    · exact .inr ⟨between, rfl, rfl⟩
  · rcases List.cons_eq_append_iff.mp hrest with ⟨rfl, hcons⟩ | ⟨between, rfl, rfl⟩
    · exact absurd (List.cons.inj hcons).1 hne
    · exact .inl ⟨between, rfl, rfl⟩

/-- A query without one of its literals. -/
inductive Expr.Context where
  /-- a comparison without its literal -/
  | comparison (field : FieldPath) (op : Comparator)
  /-- the literal is missing on the left of a connective -/
  | inLeft (connective : Connective) (inner : Context) (right : Expr)
  /-- the literal is missing on the right of a connective -/
  | inRight (connective : Connective) (left : Expr) (inner : Context)
  | inGrouping (inner : Context)

namespace Expr.Context

/-- The query with `v` in the place of the missing literal. -/
def plug (v : Literal) : Context → Expr
  | comparison path op => .comparison path op v
  | inLeft connective inner right => .logical connective (inner.plug v) right
  | inRight connective left inner => .logical connective left (inner.plug v)
  | inGrouping inner => .grouping (inner.plug v)

/-- The kinds of the tokens before the missing literal. -/
def before : Context → List Token.Kind
  | comparison path op => [.identifier path.name, .comparator op]
  | inLeft _ inner _ => inner.before
  | inRight connective left inner => left.kinds ++ .connective connective :: inner.before
  | inGrouping inner => .leftParen :: inner.before

/-- The kinds of the tokens behind the missing literal. -/
def after : Context → List Token.Kind
  | comparison .. => []
  | inLeft connective inner right => inner.after ++ .connective connective :: right.kinds
  | inRight _ _ inner => inner.after
  | inGrouping inner => inner.after ++ [.rightParen]

theorem kinds_plug (C : Context) (v : Literal) :
    (C.plug v).kinds = C.before ++ v.kind :: C.after := by
  induction C with
  | comparison => rfl
  | inLeft connective inner right ih => simp [plug, before, after, kinds_logical, ih]
  | inRight connective left inner ih => simp [plug, before, after, kinds_logical, ih]
  | inGrouping inner ih => simp [plug, before, after, kinds_grouping, ih]

/-- A literal stands behind a comparator. -/
theorem getLast?_before (C : Context) : ∃ op, C.before.getLast? = some (.comparator op) := by
  induction C with
  | comparison path op => exact ⟨op, rfl⟩
  | inLeft _ inner _ ih => exact ih
  | inRight connective left inner ih =>
    obtain ⟨op, hop⟩ := ih
    exact ⟨op, by simp [before, List.getLast?_cons, hop]⟩
  | inGrouping inner ih =>
    obtain ⟨op, hop⟩ := ih
    exact ⟨op, by simp [before, List.getLast?_cons, hop]⟩

theorem head?_append_cons {kinds rest : List Token.Kind} {next : Token.Kind}
    (hkinds : ∀ kind ∈ kinds.head?, kind.literal? = none) (hnext : next.literal? = none) :
    ∀ kind ∈ (kinds ++ next :: rest).head?, kind.literal? = none := by
  cases kinds with
  | nil => rintro _ ⟨⟩; exact hnext
  | cons => exact hkinds

/-- No literal stands behind a literal. -/
theorem head?_after (C : Context) : ∀ kind ∈ C.after.head?, kind.literal? = none := by
  induction C with
  | comparison => nofun
  | inLeft connective inner right ih => exact head?_append_cons ih rfl
  | inRight _ _ inner ih => exact ih
  | inGrouping inner ih => exact head?_append_cons ih rfl

/-- How tight a tree binds does not depend on its literals. -/
theorem bareOperator?_plug (C : Context) (v w : Literal) :
    (C.plug v).bareOperator? = (C.plug w).bareOperator? := by
  cases C <;> rfl

/-- With a string for the missing literal, a query remains a query. -/
theorem admits_plug {C : Context} {v : Literal} (h : Grammar.query.Admits (C.plug v)) (s : String) :
    Grammar.query.Admits (C.plug (.string s)) := by
  induction C with
  | comparison path op => exact ⟨h.1, h.2.1, fun _ ↦ ⟨s, rfl⟩⟩
  | inLeft connective inner right ih =>
    obtain ⟨hg, hl, hr, htakes⟩ := h
    refine ⟨hg, ih hl, hr, ?_⟩
    simpa only [Grammar.Operator.Takes, isLoose, inner.bareOperator?_plug (.string s) v]
      using htakes
  | inRight connective left inner ih =>
    obtain ⟨hg, hl, hr, htakes⟩ := h
    refine ⟨hg, hl, ih hr, ?_⟩
    simpa only [Grammar.Operator.Takes, isLoose, isTight, inner.bareOperator?_plug (.string s) v]
      using htakes
  | inGrouping inner ih => exact ih h

/-- Whatever literal is missing, the predicate is that of the context, and there are as many
bindings. -/
theorem bind_plug {C : Context} {v : Literal} {first : Nat} {p : Predicate} {values : List Literal}
    (h : (C.plug v).bind first = .ok (p, values)) (w : Literal) :
    ∃ values', (C.plug w).bind first = .ok (p, values') ∧ values'.length = values.length := by
  induction C generalizing first p values with
  | comparison path op => cases h; exact ⟨[w], rfl, rfl⟩
  | inLeft connective inner right ih =>
    obtain ⟨l, leftValues, r, rightValues, hl, hr, rfl, rfl⟩ := bind_logical h
    obtain ⟨leftValues', hl', hlength⟩ := ih hl
    rw [← hlength] at hr
    exact ⟨_, bind_logical_of_bind connective hl' hr, by simp [hlength]⟩
  | inRight connective left inner ih =>
    obtain ⟨l, leftValues, r, rightValues, hl, hr, rfl, rfl⟩ := bind_logical h
    obtain ⟨rightValues', hr', hlength⟩ := ih hr
    exact ⟨_, bind_logical_of_bind connective hl hr', by simp [hlength]⟩
  | inGrouping inner ih => exact ih h

/-- Every literal token of a query is the one that is missing in some context. -/
theorem exists_context {e : Expr} (h : Grammar.query.Admits e) {before after : List Token.Kind}
    {v : Literal} (hkinds : e.kinds = before ++ v.kind :: after) :
    ∃ C : Context, C.plug v = e ∧ C.before = before ∧ C.after = after := by
  induction e, h using Grammar.query_induction generalizing before after with
  | comparison path op value _ =>
    have hkinds : [.identifier path.name, .comparator op, value.kind] = before ++ v.kind :: after :=
      hkinds
    rcases before with _ | ⟨k, _ | ⟨k', _ | ⟨k'', before⟩⟩⟩
    · exact absurd (List.cons.inj hkinds).1 (Token.Kind.ne_of_literal?_eq_none rfl v)
    · exact absurd (List.cons.inj (List.cons.inj hkinds).2).1
        (Token.Kind.ne_of_literal?_eq_none rfl v)
    · simp only [List.cons_append, List.nil_append, List.cons.injEq] at hkinds
      obtain ⟨rfl, rfl, hvalue, rfl⟩ := hkinds
      exact ⟨.comparison path op, by rw [plug, Literal.kind_injective hvalue], rfl, rfl⟩
    · simp at hkinds
  | logical connective left right _ _ _ ihl ihr =>
    rw [kinds_logical] at hkinds
    have hne : Token.Kind.connective connective ≠ v.kind := Token.Kind.ne_of_literal?_eq_none rfl v
    rcases cases_of_append_cons_eq hne hkinds with ⟨between, hleft, rfl⟩ | ⟨between, rfl, hright⟩
    · obtain ⟨C, rfl, rfl, rfl⟩ := ihl hleft
      exact ⟨.inLeft connective C right, rfl, rfl, rfl⟩
    · obtain ⟨C, rfl, rfl, rfl⟩ := ihr hright
      exact ⟨.inRight connective left C, rfl, rfl, rfl⟩
  | grouping inner _ ih =>
    rw [kinds_grouping] at hkinds
    cases before with
    | nil => exact absurd (List.cons.inj hkinds).1 (Token.Kind.ne_of_literal?_eq_none rfl v)
    | cons k before =>
      rw [List.cons_append, List.cons.injEq] at hkinds
      obtain ⟨rfl, hkinds⟩ := hkinds
      rcases cases_of_append_cons_eq (Token.Kind.ne_of_literal?_eq_none rfl v) hkinds with
        ⟨between, hinner, rfl⟩ | ⟨_, -, hnil⟩
      · obtain ⟨C, rfl, rfl, rfl⟩ := ih hinner
        exact ⟨.inGrouping C, rfl, rfl, rfl⟩
      · simp at hnil

end Expr.Context

/-! ## Queries -/

/-- The number of literals among tokens. -/
def Token.literalCount (tokens : List Token) : Nat :=
  (tokens.filterMap (·.kind.literal?)).length

/-- The bindings of a query that `v` is missing from, with `v` in its place. -/
theorem Expr.Context.bindings_of_prepare {C : Context} {v : Literal} {q : PreparedQuery}
    (hadmits : Grammar.query.Admits (C.plug v)) (h : (C.plug v).prepare.result = .ok q) :
    q.bindings = C.before.filterMap Token.Kind.literal? ++
      v :: C.after.filterMap Token.Kind.literal? := by
  obtain ⟨p, hbind⟩ := Grammar.bind_of_admits hadmits 0
  rw [bind_of_prepare h, Except.ok.injEq, Prod.mk.injEq] at hbind
  rw [hbind.2, kinds_plug, List.filterMap_append,
    List.filterMap_cons_some (Token.Kind.literal?_eq_some_iff.mpr rfl)]

/-- With a string for the missing literal, the query has the same predicate. -/
theorem Expr.Context.prepare_plug {C : Context} {v : Literal} {q : PreparedQuery}
    (h : (C.plug v).prepare.result = .ok q) (w : Literal) :
    ∃ q', (C.plug w).prepare.result = .ok q' ∧ q'.predicate = q.predicate := by
  obtain ⟨values, hbind, -⟩ := bind_plug (bind_of_prepare h) w
  obtain ⟨q', hq', hpredicate, -⟩ := prepare_of_bind hbind
  exact ⟨q', hq', hpredicate⟩

/-- A literal of a query may be written as any string instead.  The tree that is read is the same,
but for the literal. -/
theorem Grammar.parse_quoted {text : String} {e : Expr} (h : (query.parse text).result = .ok e)
    {before after : List Token} {t : Token} {v : Literal}
    (htokens : (Lexer.ofText text).Yields (before ++ t :: after))
    (ht : t.kind.literal? = some v) :
    ∃ (C : Expr.Context) (front back : String), C.plug v = e ∧ C.before = before.map (·.kind) ∧
      text = front ++ t.lexeme ++ back ∧ front.length = t.offset ∧
      ∀ s : String,
        (query.parse (front ++ String.ofList (Lexeme.quoted s.toList) ++ back)).result =
          .ok (C.plug (.string s)) := by
  obtain ⟨tokens, htokens', hsymbols, hadmits⟩ := parse_eq_ok_iff.mp h
  obtain rfl := htokens'.unique htokens
  have hkinds := (kinds_eq_iff hadmits).mpr hsymbols
  rw [List.map_append, List.map_cons, Token.Kind.literal?_eq_some_iff.mp ht] at hkinds
  obtain ⟨C, rfl, hbefore, hafter⟩ := Expr.Context.exists_context hadmits hkinds.symm
  have hcomparator : ∀ kind ∈ (before.map (·.kind)).getLast?, ∀ s, kind ≠ .string s := by
    obtain ⟨op, hop⟩ := C.getLast?_before
    rw [← hbefore, hop]
    rintro _ ⟨⟩
    nofun
  have hnext : ∀ kind ∈ (after.map (·.kind)).head?, ∀ s, kind ≠ .string s := by
    rw [← hafter]
    rintro kind hkind s rfl
    exact nomatch C.head?_after _ hkind
  obtain ⟨front, back, htext, hfront, hquoted⟩ := Lexer.yields_quoted htokens hcomparator hnext
  refine ⟨C, front, back, rfl, hbefore, htext, hfront, fun s ↦ ?_⟩
  obtain ⟨tokens', hyields, hkinds'⟩ := hquoted s
  have hadmits' := Expr.Context.admits_plug hadmits s
  refine parse_eq_ok_iff.mpr ⟨tokens', hyields, (kinds_eq_iff hadmits').mp ?_, hadmits'⟩
  rw [hkinds', C.kinds_plug, hbefore, hafter]
  rfl

/-- **Literals are opaque**: a literal of a query may be written as any string instead.  What
becomes of the text is a query again, with the same predicate and the same SQL, and with the string
for the binding of the literal. -/
theorem prepareText_quoted {text : String} {q : PreparedQuery}
    (h : (prepareText text).result = .ok q) {before after : List Token} {t : Token} {v : Literal}
    (htokens : (Lexer.ofText text).Yields (before ++ t :: after))
    (ht : t.kind.literal? = some v) :
    ∃ front back : String, text = front ++ t.lexeme ++ back ∧ front.length = t.offset ∧
      q.bindings[Token.literalCount before]? = some v ∧
      ∀ s : String, ∃ q',
        (prepareText (front ++ String.ofList (Lexeme.quoted s.toList) ++ back)).result = .ok q' ∧
          q'.predicate = q.predicate ∧
          q'.bindings = q.bindings.set (Token.literalCount before) (.string s) ∧
          ∀ d : Sql.Dialect, (d.clause q').sql = (d.clause q).sql := by
  obtain ⟨e, hparse, hprepare⟩ := prepareText_eq_ok_iff.mp h
  obtain ⟨-, -, -, hadmits⟩ := Grammar.parse_eq_ok_iff.mp hparse
  obtain ⟨C, front, back, rfl, hbefore, htext, hfront, hquoted⟩ :=
    Grammar.parse_quoted hparse htokens ht
  have hbindings := Expr.Context.bindings_of_prepare hadmits hprepare
  have hindex : Token.literalCount before = (C.before.filterMap Token.Kind.literal?).length := by
    rw [hbefore, List.filterMap_map]
    rfl
  refine ⟨front, back, htext, hfront, by simp [hbindings, hindex], fun s ↦ ?_⟩
  obtain ⟨q', hprepare', hpredicate⟩ := Expr.Context.prepare_plug hprepare (.string s)
  refine ⟨q', prepareText_eq_ok_iff.mpr ⟨_, hquoted s, hprepare'⟩, hpredicate, ?_, fun d ↦ ?_⟩
  · have hadmits' := Expr.Context.admits_plug hadmits s
    rw [Expr.Context.bindings_of_prepare hadmits' hprepare', hbindings, hindex]
    simp
  · rw [Sql.sql_clause, Sql.sql_clause, hpredicate]

/-- The number touches the keyword behind it, and so may a string. -/
theorem prepareText_quoted_touching : ∃ front back : String,
    "a=5AND b=6" = front ++ "5" ++ back ∧ front.length = 2 ∧
      ∀ s : String, ∃ q',
        (prepareText (front ++ String.ofList (Lexeme.quoted s.toList) ++ back)).result = .ok q' ∧
          q'.bindings = [.string s, .integer 6] ∧
          (Sql.Dialect.sqlite.clause q').sql = "(\"a\" = ? and \"b\" = ?)" := by
  let q : PreparedQuery :=
    ⟨.logical .and (.comparison ⟨["a"], by decide, by decide⟩ .equal 0)
      (.comparison ⟨["b"], by decide, by decide⟩ .equal 1), [.integer 5, .integer 6], by decide⟩
  have h : (prepareText "a=5AND b=6").result = .ok q := by decide +kernel
  have htokens : (Lexer.ofText "a=5AND b=6").Yields
      ([⟨.identifier "a", "a", 0⟩, ⟨.comparator .equal, "=", 1⟩] ++ ⟨.number 5, "5", 2⟩ ::
        [⟨.connective .and, "AND", 3⟩, ⟨.identifier "b", "b", 7⟩, ⟨.comparator .equal, "=", 8⟩,
          ⟨.number 6, "6", 9⟩]) := ⟨.atEnd 10, rfl, by decide +kernel⟩
  have hsql : (Sql.Dialect.sqlite.clause q).sql = "(\"a\" = ? and \"b\" = ?)" := by decide +kernel
  obtain ⟨front, back, htext, hfront, -, hquoted⟩ := prepareText_quoted h htokens rfl
  refine ⟨front, back, htext, hfront, fun s ↦ ?_⟩
  obtain ⟨q', hprepare, -, hbindings, hclause⟩ := hquoted s
  exact ⟨q', hprepare, hbindings, (hclause .sqlite).trans hsql⟩

end RecordQuery
