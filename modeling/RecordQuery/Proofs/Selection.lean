import RecordQuery.Selector
import RecordQuery.Proofs.ExactOrder
import RecordQuery.Proofs.PatternSearch
import RecordQuery.Proofs.Preparation
import Mathlib.Data.String.Basic

/-!
# What a query selects

On its way to the records a query loses its literals to a list of bindings and its groupings
altogether, is put together again as a selector, and only then tested.  None of this changes what it
means.  The meaning of a tree is defined here without any of these steps, and the records that pass
are shown to be the ones that the tree describes.

There are no such records when a pattern is refused, which is up to the engine.  The meaning of a
tree leaves open what `LIKE` is.  With an engine of which nothing is known it is what the engine
finds; with one that can be relied on it is what the pattern says.

* `Json.Leads`: where a field leads to.
* `Json.Satisfies`: what a comparison asks of the value there.
* `Expr.Selects`: what a tree asks of a record.
* `Expr.refusal?`: why there is no selector for a tree.
* `makes_foldM`: a selector made from the bindings asks the same as the tree they were taken from.
  Placeholders are counted on from one operand to the next, so this is proved for bindings that
  start anywhere in a list.
* `filter_of_prepare`: the records that pass.
-/

set_option autoImplicit false

namespace RecordQuery

/-! ## Where a field leads -/

namespace Json

/-- Whether a segment is written as the index `i`: digits, perhaps behind a plus sign, that say a
number of `64` bits. -/
def IsIndex (segment : String) (i : Nat) : Prop :=
  ∃ digits : List Char, digits ≠ [] ∧ (∀ c ∈ digits, c.isDigit = true) ∧
    (segment.toList = digits ∨ segment.toList = '+' :: digits) ∧
    Nat.ofDigitChars 10 digits 0 = i ∧ i < 2 ^ 64

/-- The segments of a field lead from one value to another inside it: names into objects, and
indices into arrays. -/
inductive Leads : Json → List String → Json → Prop
  | here (v : Json) : Leads v [] v
  | member {members : List (String × Json)} {segment : String} {segments : List String}
      {v found : Json} (h : members.lookup segment = some v) (hs : Leads v segments found) :
      Leads (object members) (segment :: segments) found
  | item {items : List Json} {segment : String} {segments : List String} {i : Nat} {v found : Json}
      (h : IsIndex segment i) (hi : items[i]? = some v) (hs : Leads v segments found) :
      Leads (array items) (segment :: segments) found

theorem member?_eq_lookup (name : String) (members : List (String × Json)) :
    member? name members = members.lookup name := by
  induction members with
  | nil => rfl
  | cons m members ih =>
    obtain ⟨name', v⟩ := m
    rw [member?, List.lookup_cons, ih]
    by_cases h : name = name'
    · rw [if_pos h, beq_iff_eq.mpr h]
    · rw [if_neg h, beq_eq_false_iff_ne.mpr h]

theorem eq_or_eq_of_withoutPlus (cs : List Char) :
    cs = withoutPlus cs ∨ cs = '+' :: withoutPlus cs := by
  fun_cases withoutPlus cs with
  | case1 cs => exact .inr rfl
  | case2 cs => exact .inl rfl

/-- A plus sign is no digit. -/
theorem withoutPlus_of_forall_isDigit {digits : List Char} (h : ∀ c ∈ digits, c.isDigit = true) :
    withoutPlus digits = digits := by
  fun_cases withoutPlus digits with
  | case1 cs => exact absurd (h '+' List.mem_cons_self) (by decide)
  | case2 cs => rfl

theorem index?_eq_some_iff {segment : String} {i : Nat} :
    index? segment = some i ↔ IsIndex segment i := by
  rw [index?]
  constructor
  · intro h
    split at h
    · rename_i hindex
      obtain ⟨hne, hall, hlt⟩ := hindex
      cases h
      exact ⟨_, hne, List.all_eq_true.mp hall, eq_or_eq_of_withoutPlus _, rfl, hlt⟩
    · cases h
  · rintro ⟨digits, hne, hall, hcs, rfl, hlt⟩
    have hdigits : withoutPlus segment.toList = digits := by
      rcases hcs with hcs | hcs
      · rw [hcs, withoutPlus_of_forall_isDigit hall]
      · rw [hcs]
        rfl
    rw [hdigits]
    exact if_pos ⟨hne, List.all_eq_true.mpr hall, hlt⟩

theorem child?_eq_some {segment : String} {v found : Json} :
    child? segment v = some found ↔
      (∃ members, v = object members ∧ members.lookup segment = some found) ∨
        ∃ items i, v = array items ∧ IsIndex segment i ∧ items[i]? = some found := by
  cases v with
  | object members => simp [child?, member?_eq_lookup]
  | array items => simp [child?, Option.bind_eq_some_iff, index?_eq_some_iff]
  | _ => simp [child?]

theorem lookup?_eq_some_iff {v found : Json} {segments : List String} :
    v.lookup? segments = some found ↔ Leads v segments found := by
  induction segments generalizing v with
  | nil =>
    constructor
    · rintro ⟨⟩
      exact .here _
    · rintro ⟨⟩
      rfl
  | cons segment segments ih =>
    have hcons : v.lookup? (segment :: segments) =
        (child? segment v).bind (·.lookup? segments) := by
      rw [lookup?, List.foldlM_cons]
      rfl
    rw [hcons, Option.bind_eq_some_iff]
    constructor
    · rintro ⟨w, hw, hfound⟩
      rcases child?_eq_some.mp hw with ⟨members, rfl, h⟩ | ⟨items, i, rfl, hi, h⟩
      · exact .member h (ih.mp hfound)
      · exact .item hi h (ih.mp hfound)
    · intro h
      cases h with
      | member h hs => exact ⟨_, child?_eq_some.mpr (.inl ⟨_, rfl, h⟩), ih.mpr hs⟩
      | item hi h hs => exact ⟨_, child?_eq_some.mpr (.inr ⟨_, _, rfl, hi, h⟩), ih.mpr hs⟩

theorem Leads.unique {record found found' : Json} {segments : List String}
    (h : record.Leads segments found) (h' : record.Leads segments found') : found = found' := by
  rw [← lookup?_eq_some_iff] at h h'
  exact Option.some.inj (h.symm.trans h')

end Json

/-! ## Comparing -/

/-- What a comparator asks of two values of an order; `like` asks nothing that an order can tell. -/
def Comparator.Relates {α : Type} [LinearOrder α] : Comparator → α → α → Prop
  | equal, a, b => a = b
  | notEqual, a, b => a ≠ b
  | lessThan, a, b => a < b
  | lessEqual, a, b => a ≤ b
  | greaterThan, a, b => b < a
  | greaterEqual, a, b => b ≤ a
  | like, _, _ => False

/-- What a comparison asks of the value it finds, when `like` is what a pattern asks of a text.
Strings are ordered by code points, and numbers by the value they are written with. -/
def Json.Satisfies (like : String → String → Prop) (op : Comparator) : Json → Literal → Prop
  | string text, .string s => if op = .like then like s text else op.Relates text s
  | number n, .integer i => op.Relates n.written.toRat (i.toInt : Rat)
  | _, _ => False

/-- What a tree asks of a record.  A tree with other nodes than these is no condition. -/
def Expr.Selects (like : String → String → Prop) : Expr → Json → Prop
  | comparison path op value, record =>
    ∃ found, record.Leads path.segments found ∧ found.Satisfies like op value
  | logical .and left right, record => left.Selects like record ∧ right.Selects like record
  | logical .or left right, record => left.Selects like record ∨ right.Selects like record
  | grouping inner, record => inner.Selects like record
  | _, _ => False

theorem Comparator.holds_compare_iff {α : Type} [LinearOrder α] [DecidableEq α] (op : Comparator)
    (a b : α) [Decidable (a < b)] :
    op.holds (compareOfLessAndEq a b) = true ↔ op.Relates a b := by
  rcases lt_trichotomy a b with h | rfl | h
  · rw [compareOfLessAndEq, if_pos h]
    cases op <;> simp [holds, Relates, h, h.ne, h.le, h.not_gt, h.not_ge]
  · rw [compareOfLessAndEq, if_neg (lt_irrefl a), if_pos rfl]
    cases op <;> simp [holds, Relates]
  · rw [compareOfLessAndEq, if_neg h.not_gt, if_neg h.ne']
    cases op <;> simp [holds, Relates, h, h.ne', h.le, h.not_gt, h.not_ge]

/-- Values of one kind are compared by their order, and values of two kinds not at all. -/
theorem Json.order?_holds_iff {like : String → String → Prop} {found : Json} {op : Comparator}
    {value : Literal} (h : op = .like → ∀ s, value ≠ .string s) :
    (∃ o, found.order? value = some o ∧ op.holds o = true) ↔ found.Satisfies like op value := by
  cases found <;> cases value
  case string.string text s =>
    have hop : op ≠ .like := fun hop ↦ h hop s rfl
    simp [order?, Satisfies, hop, Comparator.holds_compare_iff]
  case number.integer n i =>
    simp [order?, Satisfies, n.compare_eq, Comparator.holds_compare_iff]
  all_goals simp [order?, Satisfies]

/-- The meaning of a pattern matters where a string meets a pattern, and nowhere else. -/
theorem Json.satisfies_like_congr {like like' : String → String → Prop} {found : Json}
    {op : Comparator} {value : Literal}
    (h : op = .like → ∀ s, value = .string s → ∀ text, like s text ↔ like' s text) :
    found.Satisfies like op value ↔ found.Satisfies like' op value := by
  cases found <;> cases value
  case string.string text s =>
    rw [Satisfies, Satisfies]
    split
    · rename_i hop
      exact h hop s rfl text
    · exact Iff.rfl
  all_goals exact Iff.rfl

/-! ## Patterns -/

namespace Like

/-- Whether the engine finds the pattern in a text. -/
def Finds (engine : Regex.Engine) (pattern text : String) : Prop :=
  ∃ r, compile engine pattern = .ok r ∧ engine.isMatch r text = true

/-- Whether the pattern covers a text. -/
def Matches (pattern text : String) : Prop := Covers pattern.toList text.toList

instance (pattern text : String) : Decidable (Matches pattern text) :=
  inferInstanceAs (Decidable (Covers _ _))

/-- Why the engine refuses a pattern, if it does. -/
def refusal? (engine : Regex.Engine) (pattern : String) : Option SelectionError :=
  match compile engine pattern with
  | .ok _ => none
  | .error reason => some (.pattern reason)

/-- An engine that can be relied on finds what the patterns cover that it does not refuse. -/
theorem finds_iff_matches {engine : Regex.Engine} (hengine : engine.Lawful) {pattern : String}
    (h : refusal? engine pattern = none) (text : String) :
    Finds engine pattern text ↔ Matches pattern text := by
  rw [refusal?] at h
  split at h
  · rename_i r hr
    rw [Matches, ← covers_ofString, ← matches_iff_covers, ← isMatch_eq_matches hengine hr]
    constructor
    · rintro ⟨r', hr', hmatch⟩
      cases hr.symm.trans hr'
      exact hmatch
    · exact fun hmatch ↦ ⟨r, hr, hmatch⟩
  · cases h

end Like

namespace Expr

/-- The patterns of a tree from left to right. -/
def patterns : Expr → List String
  | comparison _ op value =>
    match op, value with
    | .like, .string pattern => [pattern]
    | _, _ => []
  | logical _ left right => left.patterns ++ right.patterns
  | grouping inner => inner.patterns
  | _ => []

/-- Why there is no selector for a tree: the engine refuses a pattern, and this is the first one. -/
def refusal? (engine : Regex.Engine) (e : Expr) : Option SelectionError :=
  e.patterns.findSome? (Like.refusal? engine)

/-- Whether `made` is what comes of a tree: the refusal of its first pattern that is refused, or a
selector that asks what the tree asks. -/
def Makes {engine : Regex.Engine} (e : Expr) : Except SelectionError (Selector engine) → Prop
  | .error err => e.refusal? engine = some err
  | .ok s => e.refusal? engine = none ∧
      ∀ record, s.accepts record = true ↔ e.Selects (Like.Finds engine) record

theorem refusal?_logical (engine : Regex.Engine) (connective : Connective) (left right : Expr) :
    (logical connective left right).refusal? engine =
      (left.refusal? engine).or (right.refusal? engine) :=
  List.findSome?_append

/-- Only the patterns of a tree are asked for. -/
theorem selects_congr {like like' : String → String → Prop} {e : Expr}
    (h : ∀ pattern ∈ e.patterns, ∀ text, like pattern text ↔ like' pattern text) (record : Json) :
    e.Selects like record ↔ e.Selects like' record := by
  induction e with
  | comparison path op value =>
    refine exists_congr fun found ↦ and_congr_right fun _ ↦ Json.satisfies_like_congr ?_
    rintro rfl pattern rfl
    exact h pattern List.mem_cons_self
  | logical connective left right ihl ihr =>
    have hleft := ihl fun pattern hp ↦ h pattern (List.mem_append_left _ hp)
    have hright := ihr fun pattern hp ↦ h pattern (List.mem_append_right _ hp)
    cases connective with
    | and => exact and_congr hleft hright
    | or => exact or_congr hleft hright
  | grouping inner ih => exact ih h
  | number | string | field | arithmetic => exact Iff.rfl

/-- With an engine that can be relied on, a tree of which no pattern is refused asks what its
patterns say. -/
theorem selects_finds_iff {engine : Regex.Engine} (hengine : engine.Lawful) {e : Expr}
    (h : e.refusal? engine = none) (record : Json) :
    e.Selects (Like.Finds engine) record ↔ e.Selects Like.Matches record :=
  selects_congr (fun pattern hp ↦
    Like.finds_iff_matches hengine (List.findSome?_eq_none_iff.mp h pattern hp)) record

end Expr

/-! ## Selectors -/

namespace Selector

variable {engine : Regex.Engine}

theorem accepts_compare_iff {path : FieldPath} {op : Comparator} {value : Literal}
    {record : Json} : (compare path op value : Selector engine).accepts record = true ↔
      ∃ found, record.Leads path.segments found ∧
        ∃ o, found.order? value = some o ∧ op.holds o = true := by
  simp only [← Json.lookup?_eq_some_iff]
  rw [accepts]
  cases record.lookup? path.segments with
  | none => simp
  | some found => cases h : found.order? value <;> simp [h]

theorem accepts_like_iff {path : FieldPath} {r : engine.Compiled} {record : Json} :
    (like path r).accepts record = true ↔
      ∃ text, record.Leads path.segments (.string text) ∧ engine.isMatch r text = true := by
  simp only [← Json.lookup?_eq_some_iff]
  rw [accepts]
  cases record.lookup? path.segments with
  | none => simp
  | some found => cases found <;> simp

theorem accepts_logical_iff {connective : Connective} {left right : Selector engine}
    {record : Json} : (logical connective left right).accepts record = true ↔
      match connective with
      | .and => left.accepts record = true ∧ right.accepts record = true
      | .or => left.accepts record = true ∨ right.accepts record = true := by
  cases connective with
  | and => rw [accepts, Bool.and_eq_true]
  | or => rw [accepts, Bool.or_eq_true]

/-- A comparison with a pattern is its selector, unless the pattern is refused. -/
theorem makes_like (path : FieldPath) (pattern : String) :
    (Expr.comparison path .like (.string pattern)).Makes
      (ofComparison path .like (.string pattern) : Except _ (Selector engine)) := by
  have hpatterns : (Expr.comparison path .like (.string pattern)).refusal? engine =
      Like.refusal? engine pattern := List.findSome?_singleton
  cases hr : Like.compile engine pattern with
  | error reason =>
    rw [ofComparison, hr, Expr.Makes, hpatterns, Like.refusal?, hr]
  | ok r =>
    rw [ofComparison, hr, Expr.Makes, hpatterns, Like.refusal?, hr]
    refine ⟨rfl, fun record ↦ accepts_like_iff.trans ?_⟩
    constructor
    · rintro ⟨text, hleads, hmatch⟩
      exact ⟨.string text, hleads, r, hr, hmatch⟩
    · rintro ⟨found, hleads, hfound⟩
      cases found <;> simp only [Json.Satisfies] at hfound
      obtain ⟨r', hr', hmatch⟩ := hfound
      cases hr.symm.trans hr'
      exact ⟨_, hleads, hmatch⟩

section

variable {path : FieldPath} {op : Comparator} {value : Literal}

theorem ofComparison_eq_compare (h : op = .like → ∀ s, value ≠ .string s) :
    (ofComparison path op value : Except _ (Selector engine)) = .ok (compare path op value) := by
  rw [ofComparison]
  exact fun pattern hop ↦ h hop pattern

/-- The selector of a comparison without a pattern asks what the comparison asks. -/
theorem accepts_compare_iff_selects (h : op = .like → ∀ s, value ≠ .string s) (record : Json) :
    (compare path op value : Selector engine).accepts record = true ↔
      (Expr.comparison path op value).Selects (Like.Finds engine) record :=
  accepts_compare_iff.trans <|
    exists_congr fun _ ↦ and_congr_right fun _ ↦ Json.order?_holds_iff h

/-- Every other comparison is its selector. -/
theorem makes_compare (h : op = .like → ∀ s, value ≠ .string s) :
    (Expr.comparison path op value).Makes
      (ofComparison path op value : Except _ (Selector engine)) := by
  have hpatterns : (Expr.comparison path op value).patterns = [] := by
    rw [Expr.patterns]
    exact fun pattern hop ↦ h hop pattern
  rw [ofComparison_eq_compare h, Expr.Makes, Expr.refusal?, hpatterns]
  exact ⟨rfl, accepts_compare_iff_selects h⟩

end

theorem makes_ofComparison (path : FieldPath) (op : Comparator) (value : Literal) :
    (Expr.comparison path op value).Makes
      (ofComparison path op value : Except _ (Selector engine)) := by
  by_cases h : op = .like ∧ ∃ s, value = .string s
  · obtain ⟨rfl, pattern, rfl⟩ := h
    exact makes_like path pattern
  · exact makes_compare fun hop s hs ↦ h ⟨hop, s, hs⟩

/-- What a comparison asks, it asks of the value that its field leads to. -/
theorem accepts_iff_of_ofComparison {path : FieldPath} {op : Comparator} {value : Literal}
    {s : Selector engine} (h : ofComparison path op value = .ok s) (record : Json) :
    s.accepts record = true ↔ ∃ found, record.Leads path.segments found ∧
      found.Satisfies (Like.Finds engine) op value := by
  have hmakes := @makes_ofComparison engine path op value
  rw [h] at hmakes
  exact hmakes.2 record

/-- Two selectors are connected when both are there, and the left one is made first. -/
theorem makes_logical (connective : Connective) {left right : Expr}
    {l r : Except SelectionError (Selector engine)} (hl : left.Makes l) (hr : right.Makes r) :
    (Expr.logical connective left right).Makes (do
      let s ← l
      let t ← r
      .ok (logical connective s t)) := by
  cases l with
  | error err =>
    show _ = some err
    rw [Expr.refusal?_logical, show left.refusal? engine = some err from hl]
    rfl
  | ok s =>
    obtain ⟨hleft, hs⟩ := hl
    cases r with
    | error err =>
      show _ = some err
      rw [Expr.refusal?_logical, hleft, Option.none_or]
      exact hr
    | ok t =>
      obtain ⟨hright, ht⟩ := hr
      refine ⟨by rw [Expr.refusal?_logical, hleft, hright]; rfl, fun record ↦ ?_⟩
      refine accepts_logical_iff.trans ?_
      cases connective with
      | and => exact and_congr (hs record) (ht record)
      | or => exact or_congr (hs record) (ht record)

end Selector

/-! ## Bindings -/

section

variable {engine : Regex.Engine} {e : Expr} {q : PreparedQuery}

/-- What is made from the bindings is what comes of the tree that they were taken from. -/
theorem makes_foldM {p : Predicate} {values bindings : List Literal}
    (before after : List Literal) (h : e.bind before.length = .ok (p, values))
    (hbindings : bindings = before ++ values ++ after)
    (hp : ∀ i ∈ p.placeholders, i < bindings.length) :
    e.Makes (p.foldM (Selector.backend engine) bindings hp) := by
  induction e generalizing p values before after with
  | comparison path op value =>
    cases h
    have hget : bindings[before.length]? = some value := by
      rw [hbindings, List.append_assoc, List.getElem?_append_right le_rfl, Nat.sub_self]
      rfl
    have hvalue : bindings.get ⟨before.length, hp _ List.mem_cons_self⟩ = value := by
      obtain ⟨_, hvalue⟩ := List.getElem?_eq_some_iff.mp hget
      exact hvalue
    rw [Predicate.foldM, hvalue]
    exact Selector.makes_ofComparison path op value
  | logical connective left right ihl ihr =>
    obtain ⟨l, leftValues, r, rightValues, hl, hr, rfl, rfl⟩ := Expr.bind_logical h
    rw [← List.length_append] at hr
    have hleft := ihl before (rightValues ++ after) hl
      (by rw [hbindings]; simp only [List.append_assoc])
      fun i hi ↦ hp i (List.mem_append_left _ hi)
    have hright := ihr (before ++ leftValues) after hr
      (by rw [hbindings]; simp only [List.append_assoc])
      fun i hi ↦ hp i (List.mem_append_right _ hi)
    exact Selector.makes_logical connective hleft hright
  | grouping inner ih => exact ih before after h hbindings hp
  | number | string | field | arithmetic => cases h

/-- What comes of a tree is the selector of its query. -/
theorem makes_of_prepare (h : e.prepare.result = .ok q) : e.Makes (q.selector engine) :=
  makes_foldM [] [] (Expr.bind_of_prepare h) (List.append_nil _).symm _

theorem selector_of_refused {err : SelectionError} (h : e.prepare.result = .ok q)
    (hrefused : e.refusal? engine = some err) : q.selector engine = .error err := by
  have hmakes : e.Makes (q.selector engine) := makes_of_prepare h
  cases hselector : q.selector engine with
  | error err' =>
    rw [hselector, Expr.Makes, hrefused] at hmakes
    rw [Option.some.inj hmakes]
  | ok s =>
    rw [hselector] at hmakes
    cases hrefused.symm.trans hmakes.1

theorem exists_selector_of_prepare (h : e.prepare.result = .ok q)
    (hrefused : e.refusal? engine = none) : ∃ s, q.selector engine = .ok s ∧
      ∀ record, s.accepts record = true ↔ e.Selects (Like.Finds engine) record := by
  have hmakes : e.Makes (q.selector engine) := makes_of_prepare h
  cases hselector : q.selector engine with
  | error err =>
    rw [hselector] at hmakes
    cases hrefused.symm.trans hmakes
  | ok s =>
    rw [hselector] at hmakes
    exact ⟨s, rfl, hmakes.2⟩

end

/-! ## Filtering -/

instance {α : Type} [LinearOrder α] [DecidableEq α] (op : Comparator) (a b : α)
    [Decidable (a < b)] : Decidable (op.Relates a b) :=
  decidable_of_iff _ (op.holds_compare_iff a b)

section

variable (like : String → String → Prop) [∀ pattern text, Decidable (like pattern text)]

instance Json.decidableSatisfies (op : Comparator) : (found : Json) → (value : Literal) →
    Decidable (found.Satisfies like op value)
  | string text, .string s =>
    inferInstanceAs (Decidable (if op = .like then like s text else op.Relates text s))
  | number n, .integer i =>
    inferInstanceAs (Decidable (op.Relates n.written.toRat (i.toInt : Rat)))
  | string _, .integer _ | number _, .string _ => inferInstanceAs (Decidable False)
  | null, _ | bool _, _ | array _, _ | object _, _ => inferInstanceAs (Decidable False)

instance Expr.decidableSelects : (e : Expr) → (record : Json) → Decidable (e.Selects like record)
  | comparison path op value, record =>
    decidable_of_iff (∃ found ∈ record.lookup? path.segments, found.Satisfies like op value)
      (exists_congr fun _ ↦ and_congr_left fun _ ↦ Json.lookup?_eq_some_iff)
  | logical .and left right, record =>
    @instDecidableAnd _ _ (left.decidableSelects record) (right.decidableSelects record)
  | logical .or left right, record =>
    @instDecidableOr _ _ (left.decidableSelects record) (right.decidableSelects record)
  | grouping inner, record => inner.decidableSelects record
  | number _, _ | string _, _ | field _, _ | arithmetic .., _ => inferInstanceAs (Decidable False)

end

namespace PreparedQuery

variable {engine : Regex.Engine} {q : PreparedQuery}

/-- Without a selector nothing is reported. -/
theorem filter_of_error {err : SelectionError} (h : q.selector engine = .error err)
    (records : List Json) : q.filter engine records = ⟨.error err, []⟩ := by
  rw [filter, h]
  rfl

theorem filter_of_ok {s : Selector engine} (h : q.selector engine = .ok s) (records : List Json) :
    q.filter engine records = ⟨.ok (records.filter s.accepts),
      [.recordsFiltered records.length (records.filter s.accepts).length]⟩ := by
  rw [filter, h]
  rfl

end PreparedQuery

/-- **Filtering is reading the tree**: whatever tree a query comes from, filtering keeps the records
that the tree selects, in order and as often as they are there.  It fails only if the engine refuses
a pattern of the tree, and then with the first one that is refused. -/
theorem filter_of_prepare {engine : Regex.Engine} (hengine : engine.Lawful) {e : Expr}
    {q : PreparedQuery} (h : e.prepare.result = .ok q) (records : List Json) :
    (q.filter engine records).result =
      match e.refusal? engine with
      | some err => .error err
      | none => .ok (records.filter fun record ↦ e.Selects Like.Matches record) := by
  cases hrefused : e.refusal? engine with
  | some err => rw [PreparedQuery.filter_of_error (selector_of_refused h hrefused)]
  | none =>
    obtain ⟨s, hs, haccepts⟩ := exists_selector_of_prepare h hrefused
    rw [PreparedQuery.filter_of_ok hs]
    refine congrArg Except.ok (List.filter_congr fun record _ ↦ ?_)
    rw [Bool.eq_iff_iff, haccepts, decide_eq_true_iff]
    exact Expr.selects_finds_iff hengine hrefused record

/-- `(age > 40 or name like "t_y%") and name != "Troy"`, as a tree. -/
def sampleTree : Expr :=
  .logical .and
    (.grouping (.logical .or
      (.comparison ⟨["age"], by decide, by decide⟩ .greaterThan (.integer 40))
      (.comparison ⟨["name"], by decide, by decide⟩ .like (.string "t_y%"))))
    (.comparison ⟨["name"], by decide, by decide⟩ .notEqual (.string "Troy"))

/-- A record with a name and an age of 30. -/
def sampleRecord (name : String) : Json :=
  .object [("age", .number (.integer 30 (by decide))), ("name", .string name)]

/-- A record that passes twice is kept twice. -/
theorem filter_sampleTree : Regex.Engine.builtIn.Lawful ∧ ∃ q, sampleTree.prepare.result = .ok q ∧
    (q.filter .builtIn [sampleRecord "Taylor", sampleRecord "Troy", sampleRecord "Taylor"]).result =
      .ok [sampleRecord "Taylor", sampleRecord "Taylor"] := by
  have hengine : Regex.Engine.builtIn.Lawful := Regex.bounded_lawful _
  have htaylor : sampleTree.Selects Like.Matches (sampleRecord "Taylor") := by decide +kernel
  have htroy : ¬ sampleTree.Selects Like.Matches (sampleRecord "Troy") := by decide +kernel
  have hpatterns : sampleTree.refusal? .builtIn = none := by decide +kernel
  refine ⟨hengine, _, rfl, ?_⟩
  rw [filter_of_prepare hengine (e := sampleTree) rfl, hpatterns]
  simp [htaylor, htroy]

/-- The name set against the pattern of all texts of `n` characters. -/
def Expr.hasLength (n : Nat) : Expr :=
  .comparison ⟨["name"], by decide, by decide⟩ .like (.string (Like.ofLength n))

theorem Expr.refusal?_hasLength {limit n : Nat} (h : limit < Regex.wildcardSize * n) :
    (hasLength n).refusal? (.bounded limit) = some (.pattern (Regex.tooBig limit)) := by
  rw [refusal?, hasLength, patterns, List.findSome?_singleton, Like.refusal?,
    Like.compile_ofLength h]

/-- A query whose pattern is too long can be prepared, but no records can be filtered with it. -/
theorem filter_hasLength : Regex.Engine.builtIn.Lawful ∧
    ∃ q, (Expr.hasLength 100000).prepare.result = .ok q ∧
      (q.filter .builtIn []).result = .error (.pattern (Regex.tooBig 0xA00000)) := by
  have hengine : Regex.Engine.builtIn.Lawful := Regex.bounded_lawful _
  obtain ⟨q, hprepare, -⟩ := Expr.prepare_of_bind (e := .hasLength 100000) rfl
  have hrefused : (Expr.hasLength 100000).refusal? .builtIn =
      some (.pattern (Regex.tooBig 0xA00000)) := Expr.refusal?_hasLength (by decide)
  refine ⟨hengine, q, hprepare, ?_⟩
  rw [PreparedQuery.filter_of_error (selector_of_refused hprepare hrefused)]

end RecordQuery
