import RecordQuery.Proofs.Selection

/-!
# What a query sees of a record

A query looks at a record through its fields and nothing else.  At a field it sees a string or a
number, or else nothing: a field that leads nowhere and one that leads to an array are the same to
it.  Records that look alike through the fields of a query both pass or both fail, and a record of
which nothing is seen fails.

* `Predicate.fields`: the fields of a query.
* `Json.Equal`: when two values are equal.  Two doubles may be, though they are written differently.
* `Json.ShowsAt`: a field shows something of a record.
* `Json.AgreeAt`: two records look alike through a field.
* `satisfies_congr`: equal values satisfy the same comparisons.
* `accepts_ofComparison_congr`, `foldM_backend_induction`: one comparison, and from it every
  condition.
* `accepts_local`: what a query sees.
-/

set_option autoImplicit false

namespace RecordQuery

/-- The fields of a condition from left to right. -/
def Predicate.fields : Predicate → List FieldPath
  | comparison field _ _ => [field]
  | logical _ left right => left.fields ++ right.fields

/-! ## Numbers of one value -/

namespace Double

variable {d d' : Double}

/-- Only zero is its own opposite. -/
theorem signed_left_injective {x : Rat} (hx : x ≠ 0) : Function.Injective (signed · x) := by
  rintro (_ | _) (_ | _) h
  case false.true => exact absurd (self_eq_neg.mp h) hx
  case true.false => exact absurd (neg_eq_self.mp h) hx
  all_goals rfl

/-- The greater of two exponents is not the least one, and its mantissa is full. -/
theorem exponent_le_of_magnitude_eq (h : d.magnitude = d'.magnitude) :
    d'.exponent ≤ d.exponent := by
  by_contra hlt
  obtain ⟨k, hk⟩ : ∃ k : Nat, d'.exponent = d.exponent + (k + 1 : Nat) :=
    ⟨(d'.exponent - d.exponent - 1).toNat, by omega⟩
  rw [magnitude, magnitude, hk, two_zpow_add, ← mul_assoc] at h
  have hmantissa : d.mantissa = d'.mantissa * 2 ^ (k + 1) := by
    exact_mod_cast mul_right_cancel₀ (two_zpow_pos d.exponent).ne' h
  have hfull : 2 ^ 52 ≤ d'.mantissa := two_pow_le_mantissa (by have := d.canonical.2.1; omega)
  have htwo : 2 ≤ 2 ^ (k + 1) := Nat.le_self_pow k.succ_ne_zero 2
  have hsize := Nat.mul_le_mul hfull htwo
  have hcanonical := d.canonical.1
  omega

/-- Each size has one form. -/
theorem eq_of_magnitude_eq (h : d.magnitude = d'.magnitude) :
    d.mantissa = d'.mantissa ∧ d.exponent = d'.exponent := by
  have hexponent : d.exponent = d'.exponent :=
    le_antisymm (exponent_le_of_magnitude_eq h.symm) (exponent_le_of_magnitude_eq h)
  rw [magnitude, magnitude, hexponent] at h
  exact ⟨by exact_mod_cast mul_right_cancel₀ (two_zpow_pos d'.exponent).ne' h, hexponent⟩

theorem toRat_shortest_of_mantissa_eq_zero (h : d.mantissa = 0) : d.shortest.toRat = 0 := by
  rw [shortest, if_pos h, Decimal.toRat, Decimal.magnitude, Nat.cast_zero, zero_mul]
  exact abs_eq_zero.mp (by rw [abs_signed, abs_zero])

/-- Only zero has two signs, so doubles of one value are written with digits of one value. -/
theorem toRat_shortest_congr (h : d.toRat = d'.toRat) :
    d.shortest.toRat = d'.shortest.toRat := by
  obtain ⟨hmantissa, hexponent⟩ := eq_of_magnitude_eq
    (show d.magnitude = d'.magnitude by rw [← abs_toRat, ← abs_toRat, h])
  by_cases hzero : d.mantissa = 0
  · rw [toRat_shortest_of_mantissa_eq_zero hzero,
      toRat_shortest_of_mantissa_eq_zero (hmantissa ▸ hzero)]
  · have hpos : 0 < d.magnitude :=
      mul_pos (Nat.cast_pos.mpr (Nat.pos_of_ne_zero hzero)) (two_zpow_pos _)
    have hmagnitude : d'.magnitude = d.magnitude := by
      rw [magnitude, magnitude, hmantissa, hexponent]
    rw [toRat, toRat, hmagnitude] at h
    have hsign := signed_left_injective hpos.ne' h
    obtain ⟨negative, mantissa, exponent, hcanonical⟩ := d
    obtain ⟨negative', mantissa', exponent', hcanonical'⟩ := d'
    cases hsign
    cases hmantissa
    cases hexponent
    rfl

end Double

/-! ## What a field shows -/

namespace Json

/-- Whether two values are equal, part by part.  Doubles are equal when they have the same value, so
`0.0` and `-0.0` are; an integer is equal to no double. -/
inductive Equal : Json → Json → Prop
  | refl (v : Json) : Equal v v
  | double {a b : Double} (h : a.toRat = b.toRat) : Equal (number (.double a)) (number (.double b))
  | array {items items' : List Json} (h : List.Forall₂ Equal items items') :
      Equal (array items) (array items')
  | object {members members' : List (String × Json)}
      (hnames : members.map (·.1) = members'.map (·.1))
      (h : List.Forall₂ Equal (members.map (·.2)) (members'.map (·.2))) :
      Equal (object members) (object members')

/-- Whether a value is one that a comparison can be about: a string or a number. -/
def IsComparable : Json → Prop
  | string _ => True
  | number _ => True
  | _ => False

/-- Whether a field shows something of a record. -/
def ShowsAt (record : Json) (path : FieldPath) : Prop :=
  ∃ found, record.Leads path.segments found ∧ found.IsComparable

instance (found : Json) : Decidable found.IsComparable := by
  unfold IsComparable
  split <;> infer_instance

instance (record : Json) (path : FieldPath) : Decidable (record.ShowsAt path) :=
  decidable_of_iff (∃ found ∈ record.lookup? path.segments, found.IsComparable)
    (exists_congr fun _ ↦ and_congr_left fun _ ↦ lookup?_eq_some_iff)

/-- Whether two records look alike through a field: it leads to equal values, or shows nothing of
either record. -/
def AgreeAt (record record' : Json) (path : FieldPath) : Prop :=
  (∃ found found', record.Leads path.segments found ∧ record'.Leads path.segments found' ∧
      found.Equal found') ∨
    (¬ record.ShowsAt path ∧ ¬ record'.ShowsAt path)

variable {like : String → String → Prop} {found found' : Json} {op : Comparator} {value : Literal}

theorem isComparable_of_satisfies (h : found.Satisfies like op value) : found.IsComparable := by
  match found, value, h with
  | string _, .string _, _ => trivial
  | number _, .integer _, _ => trivial

/-- Equal values satisfy the same comparisons. -/
theorem satisfies_congr (h : found.Equal found') :
    found.Satisfies like op value ↔ found'.Satisfies like op value := by
  cases h with
  | refl => rfl
  | @double a b h =>
    cases value with
    | string => rfl
    | integer i =>
      have hdigits : a.shortest.toRat = b.shortest.toRat := Double.toRat_shortest_congr h
      show op.Relates a.shortest.toRat _ ↔ op.Relates b.shortest.toRat _
      rw [hdigits]
  | array => cases value <;> rfl
  | object => cases value <;> rfl

end Json

/-! ## What a selector sees -/

namespace Selector

open Json

variable {engine : Regex.Engine} {record record' : Json}

section

variable {path : FieldPath} {op : Comparator} {value : Literal} {s : Selector engine}

/-- Where a field shows nothing, no comparison of it holds. -/
theorem accepts_ofComparison_eq_false (hs : ofComparison path op value = .ok s)
    (h : ¬ record.ShowsAt path) : s.accepts record = false := by
  refine Bool.eq_false_iff.mpr fun haccepts ↦ h ?_
  obtain ⟨found, hleads, hfound⟩ := (accepts_iff_of_ofComparison hs record).mp haccepts
  exact ⟨found, hleads, isComparable_of_satisfies hfound⟩

/-- A comparison asks one thing of a record, and asks it of the value that its field leads to. -/
theorem accepts_ofComparison_iff_of_leads (hs : ofComparison path op value = .ok s) {found : Json}
    (h : record.Leads path.segments found) :
    s.accepts record = true ↔ found.Satisfies (Like.Finds engine) op value := by
  rw [accepts_iff_of_ofComparison hs]
  constructor
  · rintro ⟨found', hleads, hsatisfies⟩
    rwa [h.unique hleads]
  · exact fun hsatisfies ↦ ⟨found, h, hsatisfies⟩

theorem accepts_ofComparison_congr (hs : ofComparison path op value = .ok s)
    (h : record.AgreeAt record' path) : s.accepts record = s.accepts record' := by
  rcases h with ⟨found, found', hleads, hleads', hequal⟩ | ⟨hnone, hnone'⟩
  · rw [Bool.eq_iff_iff, accepts_ofComparison_iff_of_leads hs hleads,
      accepts_ofComparison_iff_of_leads hs hleads']
    exact satisfies_congr hequal
  · rw [accepts_ofComparison_eq_false hs hnone, accepts_ofComparison_eq_false hs hnone']

end

/-- Two steps succeed one behind the other. -/
theorem exists_of_bind_eq_ok {ε α β : Type} {x : Except ε α} {f : α → Except ε β} {b : β}
    (h : x >>= f = .ok b) : ∃ a, x = .ok a ∧ f a = .ok b := by
  cases x with
  | error err => cases h
  | ok a => exact ⟨a, rfl, h⟩

/-- Two selectors are connected when there are two. -/
theorem foldM_backend_logical {connective : Connective} {left right : Predicate}
    {bindings : List Literal} {s : Selector engine}
    (hp : ∀ i ∈ (Predicate.logical connective left right).placeholders, i < bindings.length)
    (hs : (Predicate.logical connective left right).foldM (backend engine) bindings hp = .ok s) :
    ∃ l r, left.foldM (backend engine) bindings (fun i hi ↦ hp i (List.mem_append_left _ hi)) =
        .ok l ∧
      right.foldM (backend engine) bindings (fun i hi ↦ hp i (List.mem_append_right _ hi)) =
        .ok r ∧
      s = logical connective l r := by
  obtain ⟨l, hl, hs⟩ := exists_of_bind_eq_ok hs
  obtain ⟨r, hr, hs⟩ := exists_of_bind_eq_ok hs
  cases hs
  exact ⟨l, r, hl, hr, rfl⟩

/-- What holds of the selector of each comparison, and of two selectors connected when it holds of
both, holds of the selector of a condition. -/
theorem foldM_backend_induction {motive : Selector engine → Prop} {p : Predicate}
    {bindings : List Literal} {s : Selector engine}
    (hp : ∀ i ∈ p.placeholders, i < bindings.length)
    (hs : p.foldM (backend engine) bindings hp = .ok s)
    (comparison : ∀ path ∈ p.fields, ∀ op value s, ofComparison path op value = .ok s → motive s)
    (logical : ∀ connective left right, motive left → motive right →
      motive (logical connective left right)) : motive s := by
  induction p generalizing s with
  | comparison path op i => exact comparison path List.mem_cons_self op _ s hs
  | logical connective left right ihl ihr =>
    obtain ⟨l, r, hl, hr, rfl⟩ := foldM_backend_logical hp hs
    refine logical connective _ _ (ihl _ hl ?_) (ihr _ hr ?_)
    · exact fun path hpath ↦ comparison path (List.mem_append_left _ hpath)
    · exact fun path hpath ↦ comparison path (List.mem_append_right _ hpath)

/-- A connective has no other input than the answers of its operands. -/
theorem accepts_logical_congr (connective : Connective) {left right left' right' : Selector engine}
    (hleft : left.accepts record = left'.accepts record')
    (hright : right.accepts record = right'.accepts record') :
    (logical connective left right).accepts record =
      (logical connective left' right').accepts record' := by
  cases connective with
  | and => exact congrArg₂ and hleft hright
  | or => exact congrArg₂ or hleft hright

/-- No connective makes something out of nothing. -/
theorem accepts_logical_eq_false (connective : Connective) {left right : Selector engine}
    (hleft : left.accepts record = false) (hright : right.accepts record = false) :
    (logical connective left right).accepts record = false := by
  cases connective with
  | and => exact congrArg₂ and hleft hright
  | or => exact congrArg₂ or hleft hright

end Selector

open Selector in
/-- **A query sees its own fields only**: records that look alike through the fields of a query both
pass or both fail, and a record of which the fields show nothing fails. -/
theorem accepts_local {engine : Regex.Engine} {q : PreparedQuery} {s : Selector engine}
    (hs : q.selector engine = .ok s) :
    (∀ record record' : Json, (∀ path ∈ q.predicate.fields, record.AgreeAt record' path) →
        s.accepts record = s.accepts record') ∧
      ∀ record : Json, (∀ path ∈ q.predicate.fields, ¬ record.ShowsAt path) →
        s.accepts record = false := by
  constructor
  · intro record record' h
    refine foldM_backend_induction (motive := fun s ↦ s.accepts record = s.accepts record')
      q.lt_length_of_mem hs ?_ ?_
    · exact fun path hpath op value s hs ↦ accepts_ofComparison_congr hs (h path hpath)
    · exact fun connective _ _ hleft hright ↦ accepts_logical_congr connective hleft hright
  · intro record h
    refine foldM_backend_induction (motive := fun s ↦ s.accepts record = false)
      q.lt_length_of_mem hs ?_ ?_
    · exact fun path hpath op value s hs ↦ accepts_ofComparison_eq_false hs (h path hpath)
    · exact fun connective _ _ hleft hright ↦ accepts_logical_eq_false connective hleft hright

/-- `a >= 0 or b.c = "x"`, prepared. -/
def zeroOrText : PreparedQuery where
  predicate := .logical .or (.comparison ⟨["a"], by decide, by decide⟩ .greaterEqual 0)
    (.comparison ⟨["b", "c"], by decide, by decide⟩ .equal 1)
  bindings := [.integer 0, .string "x"]
  placeholders_eq := rfl

/-- It makes no difference which of the two zeros is in `a`, what leads nowhere in `b`, or whether
there is a `c` outside of it.  Without a number in `a` the record is not found. -/
theorem accepts_local_zeroOrText : ∃ s : Selector .builtIn,
    zeroOrText.selector .builtIn = .ok s ∧
      s.accepts (.object [("a", .number (.double (.zero true))), ("b", .array [.string "x"])]) =
        s.accepts (.object [("a", .number (.double (.zero false))), ("b", .object [("c", .null)]),
          ("c", .string "x")]) ∧
      s.accepts (.object [("b", .object [("c", .bool true)])]) = false := by
  refine ⟨_, rfl, ?_, ?_⟩
  · refine (accepts_local (q := zeroOrText) rfl).1 _ _ fun path hpath ↦ ?_
    rcases List.mem_pair.mp hpath with rfl | rfl
    · exact .inl ⟨_, _, .member rfl (.here _), .member rfl (.here _), .double (by decide +kernel)⟩
    · exact .inr (by decide)
  · refine (accepts_local (q := zeroOrText) rfl).2 _ fun path hpath ↦ ?_
    rcases List.mem_pair.mp hpath with rfl | rfl <;> decide

end RecordQuery
