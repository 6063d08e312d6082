import RecordQuery.Proofs.Sql.Lexing

/-!
# The keys that a JSON path names

The path to a value inside a JSON column is a text of its own inside the clause.  This file reads it
with the rule by which a double quote inside a label is written: a backslash takes the next
character as it is, and a double quote without one ends the label.

A backslash is written as it is, and so it is not read as one.  The keys are read back exactly if
none of them holds a backslash.

* `unescape`: a label up to its end, and what follows.
* `readJsonPath?`: the keys that a path names.
* `unescape_escaped`: a label without a backslash is read back.
* `unescape_escaped_ne_of_mem`: a label with one never is, whatever follows it.
* `readJsonPath?_jsonPath`: the keys that are read back.
* `extract_names_iff`: the path as it stands in a clause.
-/

set_option autoImplicit false

namespace RecordQuery
namespace Sql

/-! ## Reading a path -/

/-- What a label says, and what follows, behind its opening quote. -/
def unescape : List Char → Option (List Char × List Char)
  | [] => none
  | '"' :: cs => some ([], cs)
  | '\\' :: c :: cs => (unescape cs).map fun r ↦ (c :: r.1, r.2)
  | c :: cs => (unescape cs).map fun r ↦ (c :: r.1, r.2)

theorem length_of_unescape {cs s rest : List Char} (h : unescape cs = some (s, rest)) :
    rest.length < cs.length := by
  fun_induction unescape cs generalizing s with
  | case1 => cases h
  | case2 => cases h; exact Nat.lt_succ_self _
  | case3 c cs ih =>
    obtain ⟨r, hr, he⟩ := Option.map_eq_some_iff.mp h
    cases he
    exact Nat.lt_succ_of_lt (Nat.lt_succ_of_lt (ih hr))
  | case4 c cs _ _ ih =>
    obtain ⟨r, hr, he⟩ := Option.map_eq_some_iff.mp h
    cases he
    exact Nat.lt_succ_of_lt (ih hr)

/-- The keys that labels name. -/
def labels? : List Char → Option (List String)
  | [] => some []
  | '.' :: '"' :: cs =>
    match h : unescape cs with
    | none => none
    | some (s, rest) =>
      have := length_of_unescape h
      (labels? rest).map (String.ofList s :: ·)
  | _ => none
termination_by cs => cs.length

/-- The keys that a path names. -/
def readJsonPath? (path : String) : Option (List String) :=
  match path.toList with
  | '$' :: cs => labels? cs
  | _ => none

/-! ## Labels -/

theorem unescape_quote (cs : List Char) : unescape ('"' :: cs) = some ([], cs) := rfl

theorem unescape_backslash (c : Char) (cs : List Char) :
    unescape ('\\' :: c :: cs) = (unescape cs).map fun r ↦ (c :: r.1, r.2) := rfl

theorem unescape_of_ne {c : Char} (hquote : c ≠ '"') (hbackslash : c ≠ '\\') (cs : List Char) :
    unescape (c :: cs) = (unescape cs).map fun r ↦ (c :: r.1, r.2) := by
  rw [unescape]
  · exact hquote
  · exact fun _ _ h ↦ absurd h hbackslash

theorem escaped_quote (cs : List Char) : escaped ('"' :: cs) = '\\' :: '"' :: escaped cs := rfl

theorem escaped_of_ne {c : Char} (h : c ≠ '"') (cs : List Char) :
    escaped (c :: cs) = c :: escaped cs := by
  rw [escaped, List.flatMap_cons, if_neg h]
  rfl

/-- What stands before the first backslash is read back. -/
theorem unescape_escaped_append {s : List Char} (h : '\\' ∉ s) (cs : List Char) :
    unescape (escaped s ++ cs) = (unescape cs).map fun r ↦ (s ++ r.1, r.2) := by
  induction s with
  | nil => exact Option.map_id'.symm
  | cons c s ih =>
    obtain ⟨hc, hs⟩ := not_or.mp (mt List.mem_cons.mpr h)
    have hstep : unescape (escaped (c :: s) ++ cs) =
        (unescape (escaped s ++ cs)).map fun r ↦ (c :: r.1, r.2) := by
      by_cases hquote : c = '"'
      · rw [hquote, escaped_quote, List.cons_append, List.cons_append, unescape_backslash]
      · rw [escaped_of_ne hquote, List.cons_append, unescape_of_ne hquote (Ne.symm hc)]
    rw [hstep, ih hs, Option.map_map]
    rfl

/-- A label without a backslash is read back. -/
theorem unescape_escaped {s : List Char} (h : '\\' ∉ s) (rest : List Char) :
    unescape (escaped s ++ '"' :: rest) = some (s, rest) := by
  rw [unescape_escaped_append h, unescape_quote, Option.map_some, List.append_nil]

/-- One backslash is read where two are written. -/
theorem eq_of_unescape_backslash {cs s rest : List Char}
    (h : unescape cs = some ('\\' :: s, rest)) :
    ∃ cs', cs = '\\' :: '\\' :: cs' ∧ unescape cs' = some (s, rest) := by
  unfold unescape at h
  split at h
  · cases h
  · cases h
  · obtain ⟨r, hr, he⟩ := Option.map_eq_some_iff.mp h
    cases he
    exact ⟨_, rfl, hr⟩
  · rename_i c cs _ hbackslash
    obtain ⟨r, hr, he⟩ := Option.map_eq_some_iff.mp h
    cases he
    cases cs with
    | nil => cases hr
    | cons d cs => exact (hbackslash d cs rfl rfl).elim

/-- A backslash is written for a double quote or for itself. -/
theorem eq_of_escaped_append {s rest cs : List Char}
    (h : escaped s ++ '"' :: rest = '\\' :: cs) :
    (∃ s', s = '"' :: s' ∧ cs = '"' :: (escaped s' ++ '"' :: rest)) ∨
      ∃ s', s = '\\' :: s' ∧ cs = escaped s' ++ '"' :: rest := by
  cases s with
  | nil => cases h
  | cons c s =>
    by_cases hquote : c = '"'
    · rw [hquote, escaped_quote] at h
      cases h
      exact .inl ⟨s, by rw [hquote], rfl⟩
    · rw [escaped_of_ne hquote] at h
      cases h
      exact .inr ⟨s, rfl, rfl⟩

theorem replicate_append_cons (n : Nat) (c : Char) (cs : List Char) :
    List.replicate n c ++ c :: cs = c :: (List.replicate n c ++ cs) := by
  rw [← List.cons_append, ← List.replicate_succ, List.replicate_succ', List.append_assoc]
  rfl

/-- A label that begins with a backslash is not read back: of the two that are read as one only the
first is accounted for, and so the reading falls behind by `n` backslashes, which it would have to
find in what is left. -/
theorem unescape_escaped_ne (n : Nat) (s rest rest' : List Char)
    (h : (List.replicate n '\\' ++ s).head? = some '\\') :
    unescape (escaped s ++ '"' :: rest) ≠ some (List.replicate n '\\' ++ s, rest') := by
  intro hread
  obtain ⟨t, ht⟩ := List.head?_eq_some_iff.mp h
  rw [ht] at hread
  obtain ⟨cs, hcs, hread⟩ := eq_of_unescape_backslash hread
  rcases eq_of_escaped_append hcs with ⟨_, rfl, hcs⟩ | ⟨s', rfl, hcs⟩
  · cases hcs
  · rw [replicate_append_cons, List.cons.injEq] at ht
    rcases eq_of_escaped_append (List.cons.inj hcs).2 with ⟨_, rfl, rfl⟩ | ⟨s'', rfl, rfl⟩
    · cases hread
      exact List.append_ne_nil_of_right_ne_nil _ (List.cons_ne_nil _ _) ht.2
    · rw [← ht.2, replicate_append_cons, ← List.cons_append, ← List.replicate_succ] at hread
      exact unescape_escaped_ne (n + 1) s'' rest rest' rfl hread
termination_by s.length

/-- A label with a backslash is not read back. -/
theorem unescape_escaped_ne_of_mem {s : List Char} (h : '\\' ∈ s) (rest rest' : List Char) :
    unescape (escaped s ++ '"' :: rest) ≠ some (s, rest') := by
  intro hread
  obtain ⟨before, after, rfl, hbefore⟩ := List.eq_append_cons_of_mem h
  rw [escaped, List.flatMap_append, ← escaped, ← escaped, List.append_assoc,
    unescape_escaped_append hbefore] at hread
  obtain ⟨r, hr, he⟩ := Option.map_eq_some_iff.mp hread
  obtain ⟨hs, hrest⟩ := Prod.mk.inj he
  have hr' : r = ('\\' :: after, rest') := Prod.ext (List.append_cancel_left hs) hrest
  rw [hr'] at hr
  exact unescape_escaped_ne 0 ('\\' :: after) rest rest' rfl hr

/-! ## Paths -/

theorem labels?_label (s : String) (rest : List Char) :
    labels? ((label s).toList ++ rest) =
      (unescape (escaped s.toList ++ '"' :: rest)).bind fun r ↦
        (labels? r.2).map (String.ofList r.1 :: ·) := by
  rw [label, String.toList_ofList]
  simp only [List.cons_append, List.append_assoc, List.nil_append]
  rw [labels?]
  split
  · rename_i h
    simp only [h, Option.bind_none]
  · rename_i h
    simp only [h, Option.bind_some]

theorem labels?_flatMap_label (keys : List String) :
    labels? (keys.flatMap fun s ↦ (label s).toList) = some keys ↔ ∀ s ∈ keys, '\\' ∉ s.toList := by
  induction keys with
  | nil => simp [labels?]
  | cons s keys ih =>
    rw [List.flatMap_cons, labels?_label, List.forall_mem_cons]
    by_cases hs : '\\' ∈ s.toList
    · refine iff_of_false ?_ fun h ↦ h.1 hs
      intro hread
      obtain ⟨r, hr, hread⟩ := Option.bind_eq_some_iff.mp hread
      obtain ⟨_, _, he⟩ := Option.map_eq_some_iff.mp hread
      have hlabel : r.1 = s.toList := by
        rw [← (List.cons.inj he).1, String.toList_ofList]
      exact unescape_escaped_ne_of_mem hs _ r.2 (hr.trans (by rw [← hlabel]))
    · rw [unescape_escaped hs, Option.bind_some, String.ofList_toList, ← ih]
      simp [hs]

theorem toList_jsonPath (keys : List String) :
    (jsonPath keys).toList = '$' :: keys.flatMap fun s ↦ (label s).toList := by
  rw [jsonPath, String.toList_append, String.toList_join, List.flatMap_map]
  rfl

/-- The keys are read back exactly if none of them holds a backslash. -/
theorem readJsonPath?_jsonPath (keys : List String) :
    readJsonPath? (jsonPath keys) = some keys ↔ ∀ s ∈ keys, '\\' ∉ s.toList := by
  rw [readJsonPath?, toList_jsonPath]
  exact labels?_flatMap_label keys

theorem ofChars?_extract {path : FieldPath} (h : path.nested ≠ []) :
    Token.ofChars? (Dialect.sqlite.reference path).toList =
      some [.word "json_extract", .opening, .name path.root, .comma, .text (jsonPath path.nested),
        .closing] := by
  have hsplits := splits_extract h []
  rwa [Token.Splits, List.append_nil, Token.ofChars?, Option.map_some, List.append_nil] at hsplits

/-- **A path names the keys it was made from, as long as there is no backslash in them**: the path
inside the call is a text of its own, and reading it gives the segments below the root, in order and
to the end, exactly if no segment holds a backslash. -/
theorem extract_names_iff (path : FieldPath) (h : path.nested ≠ []) :
    ∃ lit, Token.ofChars? (Dialect.sqlite.reference path).toList =
        some [.word "json_extract", .opening, .name path.root, .comma, .text lit, .closing] ∧
      (readJsonPath? lit = some path.nested ↔ ∀ s ∈ path.nested, '\\' ∉ s.toList) :=
  ⟨jsonPath path.nested, ofChars?_extract h, readJsonPath?_jsonPath path.nested⟩

/-- Quotes of both kinds, dots and blanks do no harm. -/
theorem extract_names_quotes : ∃ lit,
    Token.ofChars? (Dialect.sqlite.reference
      ⟨["data", "it's \"so\".", "x\""], by decide, by decide⟩).toList =
        some [.word "json_extract", .opening, .name "data", .comma, .text lit, .closing] ∧
      readJsonPath? lit = some ["it's \"so\".", "x\""] := by
  obtain ⟨lit, htokens, hread⟩ := extract_names_iff
    ⟨["data", "it's \"so\".", "x\""], by decide, by decide⟩ (List.cons_ne_nil _ _)
  exact ⟨lit, htokens, hread.mpr (by decide)⟩

/-- The quote behind a backslash is taken for a part of the key, and the label does not end. -/
theorem extract_names_nothing : ∃ lit,
    Token.ofChars? (Dialect.sqlite.reference ⟨["a", "\\"], by decide, by decide⟩).toList =
        some [.word "json_extract", .opening, .name "a", .comma, .text lit, .closing] ∧
      readJsonPath? lit = none := by
  refine ⟨jsonPath ["\\"], ofChars?_extract (List.cons_ne_nil _ _), ?_⟩
  have hlabel : (["\\"].flatMap fun s ↦ (label s).toList) = (label "\\").toList ++ [] := rfl
  rw [readJsonPath?, toList_jsonPath, hlabel]
  exact labels?_label "\\" []

end Sql
end RecordQuery
