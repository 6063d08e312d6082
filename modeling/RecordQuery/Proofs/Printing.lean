import RecordQuery.Command.Answer
import RecordQuery.Proofs.Json.Injective
import RecordQuery.Proofs.Preparation
import RecordQuery.Proofs.Sql.Lexing

/-!
# What a printed query tells

A printed query has three parts: the bindings, the predicate and the SQL.  The bindings stand for
the literals, and no other part has anything of them.

* `Literal.toJson_injective`, `Predicate.toJson_append_inj`, `PreparedQuery.toJson_inj`: what is
  printed of one literal, predicate or query is printed of no other.
* `Printed.bindings`, `Printed.predicate`, `Printed.sql`: the parts of the text.
* `PreparedQuery.text_toJson`: the text is put together from these.
* `Expr.SameButLiterals`: two trees differ in nothing but their literals.
* `outcomeLine_inj`: what the printed line tells of the query, and of the tree.
-/

set_option autoImplicit false

namespace RecordQuery

/-! ## Nothing is printed alike -/

theorem Json.ofInteger_injective : Function.Injective Json.ofInteger := by
  intro i j h
  rw [ofInteger, ofInteger] at h
  injection h with hnumber
  injection hnumber with hvalue
  exact Int64.toInt_inj.mp hvalue

/-- A literal is printed as a value of its kind. -/
theorem Literal.toJson_injective : Function.Injective Literal.toJson := by
  rintro (s | i) (t | j) h
  · exact congrArg string (Json.string.inj h)
  · cases h
  · cases h
  · exact congrArg integer (Json.ofInteger_injective h)

theorem FieldPath.toJson_injective : Function.Injective FieldPath.toJson := fun _ _ h ↦
  FieldPath.ext (List.map_injective_iff.mpr (fun _ _ ↦ Json.string.inj) (Json.array.inj h))

theorem Comparator.name_injective : Function.Injective Comparator.name := by
  intro op op' h
  cases op <;> cases op' <;> first | rfl | exact absurd h (by decide)

theorem Connective.keyword_injective : Function.Injective Connective.keyword := by
  intro connective connective' h
  cases connective <;> cases connective' <;> first | rfl | exact absurd h (by decide)

/-- A predicate is known from its printed form and its placeholders.  Without these it is not, as
placeholders are printed as machine words.  The placeholders of an operand end where they end,
whatever follows them. -/
theorem Predicate.toJson_append_inj {p p' : Predicate} {r r' : List Nat}
    (h : p.toJson = p'.toJson) (hplaceholders : p.placeholders ++ r = p'.placeholders ++ r') :
    p = p' ∧ r = r' := by
  induction p generalizing p' r r' with
  | comparison path op i =>
    cases p' with
    | comparison path' op' i' =>
      simp only [toJson, Json.object.injEq, List.cons.injEq, Prod.mk.injEq, Json.string.injEq,
        true_and] at h
      obtain ⟨hpath, hop, -⟩ := h
      obtain ⟨rfl, rfl⟩ := List.cons.inj hplaceholders
      rw [FieldPath.toJson_injective hpath, Comparator.name_injective hop]
      exact ⟨rfl, rfl⟩
    | logical => simp [toJson] at h
  | logical connective left right ihl ihr =>
    cases p' with
    | comparison => simp [toJson] at h
    | logical connective' left' right' =>
      simp only [toJson, Json.object.injEq, List.cons.injEq, Prod.mk.injEq, Json.string.injEq,
        true_and, and_true] at h
      obtain ⟨hconnective, hleft, hright⟩ := h
      rw [placeholders, placeholders, List.append_assoc, List.append_assoc] at hplaceholders
      obtain ⟨rfl, hbehind⟩ := ihl hleft hplaceholders
      obtain ⟨rfl, hrest⟩ := ihr hright hbehind
      rw [Connective.keyword_injective hconnective]
      exact ⟨rfl, hrest⟩

/-- The bindings tell which placeholders there are. -/
theorem PreparedQuery.toJson_inj {q q' : PreparedQuery} {d d' : Sql.Dialect}
    (h : q.toJson d = q'.toJson d') : q.predicate = q'.predicate ∧ q.bindings = q'.bindings := by
  simp only [toJson, Json.object.injEq, List.cons.injEq, Prod.mk.injEq, Json.array.injEq,
    true_and] at h
  obtain ⟨hbindings, hpredicate, -⟩ := h
  have hbindings' : q.bindings = q'.bindings :=
    List.map_injective_iff.mpr Literal.toJson_injective hbindings
  have hplaceholders : q.predicate.placeholders ++ [] = q'.predicate.placeholders ++ [] := by
    rw [q.placeholders_eq, q'.placeholders_eq, hbindings']
  exact ⟨(Predicate.toJson_append_inj hpredicate hplaceholders).1, hbindings'⟩

/-! ## The parts of a printed query -/

namespace Printed

/-- The part with the bindings. -/
def bindings (l : Json.Layout) (values : List Literal) : String :=
  .ofList ('\x7b' :: l.gap 1 ++ Json.Quoted.encode "bindings" ++ l.colon ++
    Json.write l 1 (.array (values.map Literal.toJson)))

/-- The part with the predicate. -/
def predicate (l : Json.Layout) (p : Predicate) : String :=
  .ofList (',' :: l.gap 1 ++ Json.Quoted.encode "predicate" ++ l.colon ++ Json.write l 1 p.toJson)

/-- The part with the SQL. -/
def sql (l : Json.Layout) (d : Sql.Dialect) (p : Predicate) : String :=
  .ofList (',' :: l.gap 1 ++ Json.Quoted.encode "sql" ++ l.colon ++
    Json.write l 1 (.string (Sql.parenthesized (d.condition p).sql)) ++ l.gap 0 ++ ['\x7d'])

end Printed

/-- The SQL is that of the predicate, so the bindings are in one part only. -/
theorem PreparedQuery.text_toJson (l : Json.Layout) (d : Sql.Dialect) (q : PreparedQuery) :
    (q.toJson d).text l =
      Printed.bindings l q.bindings ++ Printed.predicate l q.predicate ++
        Printed.sql l d q.predicate := by
  rw [Printed.bindings, Printed.predicate, Printed.sql, ← String.ofList_append,
    ← String.ofList_append, Json.text, toJson, Sql.sql_clause]
  refine congrArg String.ofList ?_
  simp only [Json.write, Json.writeMembers, List.append_assoc, List.cons_append, List.nil_append]
  rfl

/-! ## Trees with other literals -/

/-- Two trees differ in nothing but their literals.  The literal of a comparison may be of another
kind as well. -/
inductive Expr.SameButLiterals : Expr → Expr → Prop
  | number (m n : Integer) : SameButLiterals (number m) (number n)
  | string (s t : String) : SameButLiterals (string s) (string t)
  | field (path : FieldPath) : SameButLiterals (field path) (field path)
  | arithmetic (op : ArithmeticOp) (position : Nat) {left left' right right' : Expr}
      (hleft : SameButLiterals left left') (hright : SameButLiterals right right') :
      SameButLiterals (arithmetic op left right position) (arithmetic op left' right' position)
  | comparison (path : FieldPath) (op : Comparator) (v w : Literal) :
      SameButLiterals (comparison path op v) (comparison path op w)
  | logical (connective : Connective) {left left' right right' : Expr}
      (hleft : SameButLiterals left left') (hright : SameButLiterals right right') :
      SameButLiterals (logical connective left right) (logical connective left' right')
  | grouping {inner inner' : Expr} (h : SameButLiterals inner inner') :
      SameButLiterals (grouping inner) (grouping inner')

namespace Expr.SameButLiterals

variable {e e' : Expr}

/-- Literals are counted, and not looked at. -/
theorem bind_eq_ok (h : e.SameButLiterals e') {first : Nat} {p : Predicate} {values : List Literal}
    (hbind : e.bind first = .ok (p, values)) :
    ∃ values', e'.bind first = .ok (p, values') ∧ values'.length = values.length := by
  induction h generalizing first p values with
  | comparison path op v w =>
    cases hbind
    exact ⟨[w], rfl, rfl⟩
  | logical connective _ _ ihl ihr =>
    obtain ⟨l, leftValues, r, rightValues, hl, hr, rfl, rfl⟩ := bind_logical hbind
    obtain ⟨leftValues', hl', hleft⟩ := ihl hl
    obtain ⟨rightValues', hr', hright⟩ := ihr hr
    rw [← hleft] at hr'
    refine ⟨_, bind_logical_of_bind connective hl' hr', ?_⟩
    rw [List.length_append, List.length_append, hleft, hright]
  | grouping _ ih => exact ih hbind
  | number | string | field | arithmetic => cases hbind

theorem prepare_eq_ok (h : e.SameButLiterals e') {q : PreparedQuery}
    (hprepare : e.prepare.result = .ok q) :
    ∃ q', e'.prepare.result = .ok q' ∧ q'.predicate = q.predicate := by
  obtain ⟨values', hbind, -⟩ := h.bind_eq_ok (bind_of_prepare hprepare)
  obtain ⟨q', hprepare', hpredicate, -⟩ := prepare_of_bind hbind
  exact ⟨q', hprepare', hpredicate⟩

end Expr.SameButLiterals

/-! ## Printed lines -/

open Command

/-- **A printed query is known from its text**: queries that are printed alike have the same
predicate, and the same bindings of the same kinds.  And trees that differ in nothing but their
literals are printed alike, except for the bindings. -/
theorem outcomeLine_inj :
    (∀ (d d' : Sql.Dialect) (pretty pretty' : Bool) (q q' : PreparedQuery),
        outcomeLine pretty (.json (q.toJson d)) = outcomeLine pretty' (.json (q'.toJson d')) →
          q.predicate = q'.predicate ∧ q.bindings = q'.bindings) ∧
      ∀ (e e' : Expr) (q : PreparedQuery), e.SameButLiterals e' → e.prepare.result = .ok q →
        ∃ q', e'.prepare.result = .ok q' ∧ q'.predicate = q.predicate ∧
          ∀ (d : Sql.Dialect) (pretty : Bool),
            let l := if pretty then Json.Layout.pretty else .compact
            let rest := Printed.predicate l q.predicate ++ Printed.sql l d q.predicate ++ "\n"
            outcomeLine pretty (.json (q.toJson d)) = Printed.bindings l q.bindings ++ rest ∧
              outcomeLine pretty (.json (q'.toJson d)) =
                Printed.bindings l q'.bindings ++ rest := by
  constructor
  · intro d d' pretty pretty' q q' h
    exact PreparedQuery.toJson_inj (Json.text_inj (Json.Layout.isBlank_ite pretty)
      (Json.Layout.isBlank_ite pretty') Json.isSpace_newline h)
  · intro e e' q h hprepare
    obtain ⟨q', hprepare', hpredicate⟩ := h.prepare_eq_ok hprepare
    refine ⟨q', hprepare', hpredicate, fun d pretty ↦ ⟨?_, ?_⟩⟩
    · rw [outcomeLine, q.text_toJson]
      simp only [String.append_assoc]
    · rw [outcomeLine, q'.text_toJson, hpredicate]
      simp only [String.append_assoc]

/-- The field `years` set against a literal. -/
def equalYears (v : Literal) : Expr := .comparison ⟨["years"], by decide, by decide⟩ .equal v

/-- Parentheses leave no trace, and a string in place of a number none in the predicate. -/
theorem outcomeLine_inj_equalYears : ∃ q q' q'',
    (equalYears (.integer 1)).prepare.result = .ok q ∧
      (Expr.grouping (equalYears (.integer 1))).prepare.result = .ok q' ∧
      (equalYears (.string "1")).prepare.result = .ok q'' ∧
      q.bindings = q'.bindings ∧ q''.predicate = q.predicate ∧
      outcomeLine false (.json (q''.toJson .sqlite)) =
        Printed.bindings .compact q''.bindings ++
          (Printed.predicate .compact q.predicate ++ Printed.sql .compact .sqlite q.predicate ++
            "\n") := by
  obtain ⟨q'', hprepare, hpredicate, hprinted⟩ :=
    outcomeLine_inj.2 (equalYears (.integer 1)) (equalYears (.string "1")) _ (.comparison ..) rfl
  refine ⟨_, _, q'', rfl, rfl, hprepare, ?_, hpredicate, (hprinted .sqlite false).2⟩
  exact (outcomeLine_inj.1 .sqlite .sqlite true true _ _ rfl).2

end RecordQuery
