import RecordQuery.Proofs.Sql.JsonPath

/-!
# Fields are told apart by their SQL

Two fields never have the same SQL, whatever their segments hold.  The tokens of a field are
settled by its SQL, so the quoting of names and texts does no harm, and an arrow names one segment.

A JSON path is different.  A backslash at the end of a segment stands directly before the closing
quote of its label, which then looks like a quote inside a longer label, and `Sql.unescape` does not
read it back.  Still there is no second way to write the path.  Suppose that two readings part
there.  One of them has closed its label where the other one is inside, so the text goes on with a
dot and an opening quote.  The other one has to close its label at this quote, and now they have
changed places.  At the end of the text both would have to be outside.

* `labels`: the labels of some keys.
* `escaped_append_ne_labels`: a reading inside a label and one outside do not end together.
* `escaped_append_inj`: the first key is settled by the labels.
* `jsonPath_injective`: the keys are settled by the path.
* `reference_eq_iff`: the field is settled by its SQL.
-/

set_option autoImplicit false

namespace RecordQuery
namespace Sql

/-! ## Labels -/

/-- The labels of some keys, one behind the other. -/
def labels (keys : List String) : List Char := keys.flatMap fun s ↦ (label s).toList

theorem labels_cons (s : String) (keys : List String) :
    labels (s :: keys) = '.' :: '"' :: (escaped s.toList ++ '"' :: labels keys) := by
  rw [labels, List.flatMap_cons, label, String.toList_ofList, List.append_assoc]
  rfl

/-- A quote at the front of an escaped text is the one behind it. -/
theorem eq_nil_of_escaped_append {s rest cs : List Char}
    (h : escaped s ++ '"' :: rest = '"' :: cs) : s = [] ∧ rest = cs := by
  cases s with
  | nil => exact ⟨rfl, (List.cons.inj h).2⟩
  | cons c s =>
    by_cases hquote : c = '"'
    · rw [hquote, escaped_quote] at h
      cases h
    · rw [escaped_of_ne hquote] at h
      exact absurd (List.cons.inj h).1 hquote

/-- What stands inside a label is not read from outside as well.  With every label that the outer
reading opens the two readings change places, until one of them is at the end of its labels. -/
theorem escaped_append_ne_labels (s : List Char) (keys keys' : List String) :
    escaped s ++ '"' :: labels keys ≠ labels keys' := by
  intro h
  cases keys' with
  | nil => exact absurd h (List.append_ne_nil_of_right_ne_nil _ (List.cons_ne_nil _ _))
  | cons key keys' =>
    rw [labels_cons] at h
    cases s with
    | nil => cases h
    | cons c s =>
      by_cases hquote : c = '"'
      · rw [hquote, escaped_quote] at h
        cases h
      · -- the dot belongs to the label, and the quote behind it ends the label
        rw [escaped_of_ne hquote] at h
        obtain ⟨rfl, hkeys⟩ := eq_nil_of_escaped_append (List.cons.inj h).2
        exact escaped_append_ne_labels key.toList keys' keys hkeys.symm
termination_by keys.length + keys'.length

/-- Where one key goes on with a quote, the other one does too: a backslash that is there on its
own would have to end its label. -/
theorem escaped_quote_append_ne {c : Char} (hquote : c ≠ '"') (s s' : List Char)
    (keys keys' : List String) :
    escaped ('"' :: s) ++ '"' :: labels keys ≠ escaped (c :: s') ++ '"' :: labels keys' := by
  intro h
  rw [escaped_quote, escaped_of_ne hquote, List.cons_append, List.cons_append] at h
  obtain ⟨-, hlabels⟩ := eq_nil_of_escaped_append (List.cons.inj h).2.symm
  exact escaped_append_ne_labels s keys keys' hlabels.symm

/-- The first key is settled, and so are the labels behind it. -/
theorem escaped_append_inj {s s' : List Char} {keys keys' : List String}
    (h : escaped s ++ '"' :: labels keys = escaped s' ++ '"' :: labels keys') :
    s = s' ∧ labels keys = labels keys' := by
  induction s generalizing s' with
  | nil =>
    obtain ⟨hs, hlabels⟩ := eq_nil_of_escaped_append h.symm
    exact ⟨hs.symm, hlabels.symm⟩
  | cons c s ih =>
    cases s' with
    | nil => exact absurd (eq_nil_of_escaped_append h).1 (List.cons_ne_nil _ _)
    | cons c' s' =>
      by_cases hquote : c = '"'
      · by_cases hquote' : c' = '"'
        · subst hquote hquote'
          rw [escaped_quote, escaped_quote] at h
          obtain ⟨rfl, hlabels⟩ := ih (List.cons.inj (List.cons.inj h).2).2
          exact ⟨rfl, hlabels⟩
        · rw [hquote] at h
          exact absurd h (escaped_quote_append_ne hquote' s s' keys keys')
      · by_cases hquote' : c' = '"'
        · rw [hquote'] at h
          exact absurd h.symm (escaped_quote_append_ne hquote s' s keys' keys)
        · rw [escaped_of_ne hquote, escaped_of_ne hquote'] at h
          obtain ⟨rfl, htail⟩ := List.cons.inj h
          obtain ⟨rfl, hlabels⟩ := ih htail
          exact ⟨rfl, hlabels⟩

theorem labels_injective {keys keys' : List String} (h : labels keys = labels keys') :
    keys = keys' := by
  induction keys generalizing keys' with
  | nil =>
    cases keys' with
    | nil => rfl
    | cons key' keys' => rw [labels_cons] at h; cases h
  | cons key keys ih =>
    cases keys' with
    | nil => rw [labels_cons] at h; cases h
    | cons key' keys' =>
      rw [labels_cons, labels_cons] at h
      obtain ⟨hkey, hlabels⟩ := escaped_append_inj (List.cons.inj (List.cons.inj h).2).2
      rw [String.toList_inj.mp hkey, ih hlabels]

/-- The keys are settled by their path. -/
theorem jsonPath_injective {keys keys' : List String} (h : jsonPath keys = jsonPath keys') :
    keys = keys' := by
  have hchars := congrArg String.toList h
  rw [toList_jsonPath, toList_jsonPath] at hchars
  exact labels_injective (List.cons.inj hchars).2

/-! ## Tokens -/

/-- The text that a token is. -/
def Token.text? : Token → Option String
  | .text s => some s
  | _ => none

/-- The texts among the arrows are the keys. -/
theorem filterMap_text?_arrowTokens (keys : List String) :
    (arrowTokens keys).filterMap Token.text? = keys := by
  induction keys with
  | nil => rfl
  | cons key keys ih =>
    cases keys with
    | nil => rfl
    | cons key' keys => exact congrArg (key :: ·) ih

/-- The root and the keys below it are settled by the tokens of a field. -/
theorem referenceTokens_injective {d : Dialect} {p q : FieldPath}
    (h : d.referenceTokens p = d.referenceTokens q) : p.root = q.root ∧ p.nested = q.nested := by
  cases d with
  | sqlite =>
    cases hp : p.nested with
    | nil =>
      cases hq : q.nested with
      | nil =>
        simp only [Dialect.referenceTokens, hp, hq, List.cons.injEq, Token.name.injEq,
          and_true] at h
        exact ⟨h, rfl⟩
      | cons key keys =>
        simp only [Dialect.referenceTokens, hp, hq] at h
        cases h
    | cons key keys =>
      cases hq : q.nested with
      | nil =>
        simp only [Dialect.referenceTokens, hp, hq] at h
        cases h
      | cons key' keys' =>
        simp only [Dialect.referenceTokens, hp, hq, List.cons.injEq, Token.name.injEq,
          Token.text.injEq, true_and, and_true] at h
        exact ⟨h.1, jsonPath_injective h.2⟩
  | postgres =>
    simp only [Dialect.referenceTokens, List.cons.injEq, Token.name.injEq] at h
    obtain ⟨hroot, harrows⟩ := h
    have hkeys := congrArg (List.filterMap Token.text?) harrows
    rw [filterMap_text?_arrowTokens, filterMap_text?_arrowTokens] at hkeys
    exact ⟨hroot, hkeys⟩

/-- In front of a blank, a field is read as its tokens. -/
theorem ofChars?_reference (d : Dialect) (p : FieldPath) :
    Token.ofChars? ((d.reference p).toList ++ [' ']) = some (d.referenceTokens p) := by
  have hsplits := (splits_reference d p []).append (.space [])
  rwa [Token.Splits, List.append_nil, List.append_nil, Token.ofChars?, Option.map_some,
    List.append_nil] at hsplits

/-- **A field is settled by its SQL**: in neither dialect do two fields have the same SQL, be there
quotes, backslashes, dots or arrows in their segments. -/
theorem reference_eq_iff (d : Dialect) (p q : FieldPath) :
    d.reference p = d.reference q ↔ p = q := by
  constructor
  · intro h
    have htokens : d.referenceTokens p = d.referenceTokens q := by
      rw [← Option.some_inj, ← ofChars?_reference, ← ofChars?_reference, h]
    obtain ⟨hroot, hnested⟩ := referenceTokens_injective htokens
    apply FieldPath.ext
    rw [← p.root_cons_nested, ← q.root_cons_nested, hroot, hnested]
  · rintro rfl
    rfl

end Sql
end RecordQuery
