import RecordQuery.Proofs.Selection

/-!
# The comparators agree with each other

Six of the comparators ask about an order, and each does so in a query of its own.  Here the six
queries are put side by side.  On a value of the literal's kind one of `<`, `=` and `>` holds and
the other three are put together from these; elsewhere none of the six holds, and so `!=` is not
the same as no `=`.  From one literal to a greater one the answers only change in one direction.

Strings are ordered by their code points.  Their bytes in UTF-8 are ordered in the same way, as a
character with more bytes than another has the greater first byte.

* `Text.strictMono_codePoints`, `Text.strictMono_bytes`: two ways to say the order of strings.
* `Comparator.Coherent`: how the six comparators hang together.
* `Json.Passes`: a record passes the query of one comparison.
* `passes_coherent`: the answers of such queries.
-/

set_option autoImplicit false

namespace RecordQuery

/-! ## The order of strings -/

namespace Text

/-- The code points of a string. -/
def codePoints (s : String) : List Nat := s.toList.map Char.toNat

/-- The bytes of a string in UTF-8, as numbers. -/
def bytes (s : String) : List Nat := s.toUTF8.data.toList.map UInt8.toNat

/-- The bytes of a character in UTF-8, as numbers. -/
def charBytes (c : Char) : List Nat := (String.utf8EncodeChar c).map UInt8.toNat

theorem strictMono_codePoints : StrictMono codePoints := fun _ _ h ↦
  List.map_lt (fun _ _ h ↦ h) (String.lt_iff_toList_lt.mp h)

theorem bytes_eq (s : String) : bytes s = s.toList.flatMap charBytes := by
  obtain ⟨cs, rfl⟩ := s.exists_eq_ofList
  rw [bytes, String.toUTF8_eq_toByteArray, String.toByteArray_ofList, List.utf8Encode,
    List.toList_data_toByteArray, String.toList_ofList, List.map_flatMap]
  rfl

/-- Two characters are told apart by their own bytes, whatever follows these. -/
theorem charBytes_append_lt {c d : Char} (h : c < d) (xs ys : List Nat) :
    charBytes c ++ xs < charBytes d ++ ys := by
  have hlt : c.val.toNat < d.val.toNat := h
  have hmax : d.val.toNat < 0x110000 := by
    rcases d.valid with hlow | ⟨-, hhigh⟩
    · exact hlow.trans (by decide)
    · exact hhigh
  -- one more byte is one more division by `64`
  have hshift : ∀ n, n / 4096 = n / 64 / 64 ∧ n / 262144 = n / 64 / 64 / 64 := by omega
  simp only [charBytes, String.utf8EncodeChar, hshift]
  generalize c.val.toNat = m at hlt ⊢
  generalize d.val.toNat = n at hlt hmax ⊢
  -- by the number of bytes that each of them has
  split_ifs <;>
    simp (disch := omega) only [List.map_cons, List.map_nil, UInt8.toNat_ofNat', Nat.reducePow,
      Nat.mod_eq_of_lt, List.cons_append, List.nil_append, List.cons_lt_cons_iff] <;>
    omega

theorem flatMap_charBytes_lt {cs ds : List Char} (h : List.Lex (· < ·) cs ds) :
    cs.flatMap charBytes < ds.flatMap charBytes := by
  induction h with
  | @nil d ds =>
    have hne : charBytes d ≠ [] := mt List.map_eq_nil_iff.mp String.utf8EncodeChar_ne_nil
    obtain ⟨b, bs, hbs⟩ := List.exists_cons_of_ne_nil hne
    rw [List.flatMap_nil, List.flatMap_cons, hbs, List.cons_append]
    exact List.nil_lt_cons _ _
  | cons _ ih =>
    rw [List.flatMap_cons, List.flatMap_cons]
    exact List.append_left_lt ih
  | rel hlt =>
    rw [List.flatMap_cons, List.flatMap_cons]
    exact charBytes_append_lt hlt _ _

theorem strictMono_bytes : StrictMono bytes := by
  intro s t h
  rw [bytes_eq, bytes_eq]
  exact flatMap_charBytes_lt (String.lt_iff_toList_lt.mp h)

end Text

/-- Whether one literal comes before another of its kind.  Strings are ordered by code points. -/
def Literal.Precedes : Literal → Literal → Prop
  | string s, string t => Text.codePoints s < Text.codePoints t
  | integer i, integer j => i.toInt < j.toInt
  | _, _ => False

/-! ## Six comparators -/

namespace Comparator

/-- How the comparators that ask about an order hang together. -/
structure Coherent (holds : Comparator → Prop) : Prop where
  /-- One of `<`, `=` and `>` holds. -/
  some_holds : holds .lessThan ∨ holds .equal ∨ holds .greaterThan
  /-- No two of them do. -/
  one_holds : ¬ (holds .lessThan ∧ holds .equal) ∧ ¬ (holds .lessThan ∧ holds .greaterThan) ∧
    ¬ (holds .equal ∧ holds .greaterThan)
  notEqual_iff : holds .notEqual ↔ holds .lessThan ∨ holds .greaterThan
  lessEqual_iff : holds .lessEqual ↔ holds .lessThan ∨ holds .equal
  greaterEqual_iff : holds .greaterEqual ↔ holds .greaterThan ∨ holds .equal

variable {α : Type} [LinearOrder α]

theorem coherent_relates (a b : α) : Coherent (·.Relates a b) where
  some_holds := lt_trichotomy a b
  one_holds := ⟨fun h ↦ h.1.ne h.2, fun h ↦ h.1.asymm h.2, fun h ↦ h.2.ne' h.1⟩
  notEqual_iff := ne_iff_lt_or_gt
  lessEqual_iff := le_iff_lt_or_eq
  greaterEqual_iff := le_iff_lt_or_eq.trans (or_congr_right eq_comm)

theorem relates_of_lt {a u v : α} (h : u < v) :
    (lessEqual.Relates a u → lessThan.Relates a v) ∧
      (greaterEqual.Relates a v → greaterThan.Relates a u) :=
  ⟨fun ha ↦ lt_of_le_of_lt ha h, fun ha ↦ lt_of_lt_of_le h ha⟩

/-- Nothing is said about `like`. -/
theorem Coherent.congr {p q : Comparator → Prop} (hp : Coherent p)
    (h : ∀ op, op ≠ like → (q op ↔ p op)) : Coherent q := by
  have hlt := h .lessThan (by decide)
  have heq := h .equal (by decide)
  have hgt := h .greaterThan (by decide)
  constructor
  · rw [hlt, heq, hgt]
    exact hp.some_holds
  · rw [hlt, heq, hgt]
    exact hp.one_holds
  · rw [h .notEqual (by decide), hlt, hgt]
    exact hp.notEqual_iff
  · rw [h .lessEqual (by decide), hlt, heq]
    exact hp.lessEqual_iff
  · rw [h .greaterEqual (by decide), hgt, heq]
    exact hp.greaterEqual_iff

end Comparator

namespace Json

variable {like : String → String → Prop} {found : Json} {value : Literal} {op : Comparator}

/-- A string is of the kind of a string, and a number of the kind of an integer. -/
def IsOfKind : Json → Literal → Prop
  | string _, .string _ => True
  | number _, .integer _ => True
  | _, _ => False

theorem satisfies_string (h : op ≠ .like) (text s : String) :
    (string text).Satisfies like op (.string s) ↔ op.Relates text s := by
  rw [Satisfies, if_neg h]

theorem coherent_satisfies (h : found.IsOfKind value) :
    Comparator.Coherent (found.Satisfies like · value) := by
  match found, value, h with
  | string text, .string s, _ =>
    exact (Comparator.coherent_relates text s).congr fun _ hop ↦ satisfies_string hop text s
  | number n, .integer i, _ => exact Comparator.coherent_relates n.written.toRat (i.toInt : Rat)

theorem isOfKind_of_satisfies (h : found.Satisfies like op value) : found.IsOfKind value := by
  match found, value, h with
  | string _, .string _, _ => trivial
  | number _, .integer _, _ => trivial

/-- A value that is at most one literal is less than all that come after it. -/
theorem satisfies_of_precedes {u v : Literal} (h : u.Precedes v) :
    (found.Satisfies like .lessEqual u → found.Satisfies like .lessThan v) ∧
      (found.Satisfies like .greaterEqual v → found.Satisfies like .greaterThan u) := by
  match u, v, h with
  | .string s, .string t, h =>
    have hlt : s < t := Text.strictMono_codePoints.lt_iff_lt.mp h
    match found with
    | string _ => exact Comparator.relates_of_lt hlt
    | null | bool _ | number _ | array _ | object _ => exact ⟨id, id⟩
  | .integer i, .integer j, h =>
    have hlt : (i.toInt : Rat) < j.toInt := Int.cast_lt.mpr h
    match found with
    | number _ => exact Comparator.relates_of_lt hlt
    | null | bool _ | string _ | array _ | object _ => exact ⟨id, id⟩

end Json

/-! ## Six queries -/

/-- The query of one comparison. -/
def PreparedQuery.comparison (path : FieldPath) (op : Comparator) (value : Literal) :
    PreparedQuery :=
  ⟨.comparison path op 0, [value], rfl⟩

namespace Json

variable {engine : Regex.Engine} {found record : Json} {path : FieldPath} {value : Literal}
  {op : Comparator}

/-- Whether a record passes the query that compares a field with a literal.  No record does when
there is no selector for the query. -/
def Passes (engine : Regex.Engine) (record : Json) (path : FieldPath) (value : Literal)
    (op : Comparator) : Prop :=
  ∃ s, (PreparedQuery.comparison path op value).selector engine = .ok s ∧ s.accepts record = true

/-- Whether a field leads to a value of the literal's kind. -/
def HasKind (record : Json) (path : FieldPath) (value : Literal) : Prop :=
  ∃ found, record.Leads path.segments found ∧ found.IsOfKind value

theorem Passes.satisfies (h : record.Passes engine path value op) :
    ∃ found, record.Leads path.segments found ∧ found.Satisfies (Like.Finds engine) op value := by
  obtain ⟨s, hs, haccepts⟩ := h
  exact (Selector.accepts_iff_of_ofComparison hs record).mp haccepts

/-- The six comparators have nothing to do with patterns, so there is always a selector. -/
theorem passes_iff (hop : op ≠ .like) : record.Passes engine path value op ↔
    ∃ found, record.Leads path.segments found ∧ found.Satisfies (Like.Finds engine) op value := by
  have hne : op = .like → ∀ s, value ≠ .string s := fun h ↦ absurd h hop
  have hselector : (PreparedQuery.comparison path op value).selector engine =
      .ok (.compare path op value) := Selector.ofComparison_eq_compare hne
  refine Iff.trans ?_ (Selector.accepts_compare_iff_selects hne record)
  simp only [Passes, hselector, Except.ok.injEq, exists_eq_left']

theorem Passes.imp {value' : Literal} {op' : Comparator} (hop' : op' ≠ .like)
    (h : ∀ found : Json, found.Satisfies (Like.Finds engine) op value →
      found.Satisfies (Like.Finds engine) op' value') :
    record.Passes engine path value op → record.Passes engine path value' op' := by
  intro hpasses
  obtain ⟨found, hleads, hfound⟩ := hpasses.satisfies
  exact (passes_iff hop').mpr ⟨found, hleads, h found hfound⟩

theorem passes_iff_of_leads (hop : op ≠ .like) (h : record.Leads path.segments found) :
    record.Passes engine path value op ↔ found.Satisfies (Like.Finds engine) op value := by
  rw [passes_iff hop]
  constructor
  · rintro ⟨found', hleads, hsatisfies⟩
    rwa [h.unique hleads]
  · exact fun hsatisfies ↦ ⟨found, h, hsatisfies⟩

/-- **The comparators agree with each other**: where a field leads to a value of the literal's kind,
six queries have the answers of one order, and elsewhere they have none.  What is on one side of a
literal stays there when the literal moves away.  The order of strings is that of their bytes, and
the order of numbers that of the values they are written with. -/
theorem passes_coherent (engine : Regex.Engine) (record : Json) (path : FieldPath)
    (value : Literal) :
    (record.HasKind path value → Comparator.Coherent (record.Passes engine path value)) ∧
      (¬ record.HasKind path value → ∀ op, ¬ record.Passes engine path value op) ∧
      (∀ greater, value.Precedes greater →
        (record.Passes engine path value .lessEqual →
            record.Passes engine path greater .lessThan) ∧
          (record.Passes engine path greater .greaterEqual →
            record.Passes engine path value .greaterThan)) ∧
      (∀ text s, record.Leads path.segments (.string text) →
        (record.Passes engine path (.string s) .lessThan ↔ Text.bytes text < Text.bytes s) ∧
          (record.Passes engine path (.string s) .equal ↔ Text.bytes text = Text.bytes s)) ∧
      ∀ n i, record.Leads path.segments (.number n) →
        (record.Passes engine path (.integer i) .lessThan ↔ n.written.toRat < (i.toInt : Rat)) ∧
          (record.Passes engine path (.integer i) .equal ↔
            n.written.toRat = (i.toInt : Rat)) := by
  have hlt : Comparator.lessThan ≠ .like := by decide
  have heq : Comparator.equal ≠ .like := by decide
  refine ⟨?_, ?_, ?_, ?_, ?_⟩
  · rintro ⟨found, hleads, hkind⟩
    exact (coherent_satisfies hkind).congr fun _ hop ↦ passes_iff_of_leads hop hleads
  · intro hkind op hpasses
    obtain ⟨found, hleads, hfound⟩ := hpasses.satisfies
    exact hkind ⟨found, hleads, isOfKind_of_satisfies hfound⟩
  · intro greater hprecedes
    constructor
    · exact Passes.imp hlt fun _ ↦ (satisfies_of_precedes hprecedes).1
    · exact Passes.imp (by decide) fun _ ↦ (satisfies_of_precedes hprecedes).2
  · intro text s hleads
    rw [passes_iff_of_leads hlt hleads, passes_iff_of_leads heq hleads]
    exact ⟨Text.strictMono_bytes.lt_iff_lt.symm, Text.strictMono_bytes.injective.eq_iff.symm⟩
  · intro n i hleads
    exact ⟨passes_iff_of_leads hlt hleads, passes_iff_of_leads heq hleads⟩

end Json
end RecordQuery
