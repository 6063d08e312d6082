import RecordQuery.Libraries
import RecordQuery.Proofs.Json.Tokens
import Mathlib.Data.String.Basic

/-!
# Written values are read back

A value that has been read holds the members of its objects in order and nests no deeper than
`maxDepth`.  Conversely every such value is read back when it is written, compactly or not.

Both directions are about values inside open containers.  `Json.Fits` says that a value could have
been read inside so many of them; an open container has to fit as far as it has been read.

* `Json.Ordered`, `Json.depth`: the order of the members, and how deep a value nests.
* `State.fits_of_step`, `fits_of_read?`: whatever is read fits.
* `State.reads_tokens`: the tokens of a value that fits are read as the value.
* `read?_text`: its text is.

Other readers may be as good.  `Json.Reader.Lawful` says that of a reader, and `Reader.exact_lawful`
that `read?` is an example.
-/

set_option autoImplicit false

namespace RecordQuery
namespace Json

/-! ## Values that can be read -/

/-- Every object has its members in the order of their names, each name once. -/
inductive Ordered : Json → Prop where
  | null : Ordered null
  | bool (b : Bool) : Ordered (bool b)
  | number (n : Number) : Ordered (number n)
  | string (s : String) : Ordered (string s)
  | array {items : List Json} (h : ∀ item ∈ items, Ordered item) : Ordered (array items)
  | object {members : List (String × Json)} (hnames : members.Pairwise (·.1 < ·.1))
      (h : ∀ member ∈ members, Ordered member.2) : Ordered (object members)

mutual

/-- The number of containers inside one another. -/
def depth : Json → Nat
  | .array items => itemDepth items + 1
  | .object members => memberDepth members + 1
  | .null | .bool _ | .number _ | .string _ => 0

/-- The depth of the deepest item. -/
def itemDepth : List Json → Nat
  | [] => 0
  | item :: items => max item.depth (itemDepth items)

/-- The depth of the deepest value of a member. -/
def memberDepth : List (String × Json) → Nat
  | [] => 0
  | (_, value) :: members => max value.depth (memberDepth members)

end

theorem itemDepth_le_iff {items : List Json} {k : Nat} :
    itemDepth items ≤ k ↔ ∀ item ∈ items, item.depth ≤ k := by
  induction items with
  | nil => simp [itemDepth]
  | cons item items ih => simp [itemDepth, ih]

theorem memberDepth_eq (members : List (String × Json)) :
    memberDepth members = itemDepth (members.map (·.2)) := by
  induction members with
  | nil => rfl
  | cons member members ih => rw [memberDepth, ih, List.map_cons, itemDepth]

/-- Inside `level` containers the value could have been read. -/
def Fits (level : Nat) (v : Json) : Prop := v.Ordered ∧ v.depth + level ≤ maxDepth

variable {level : Nat}

/-- A container needs room for itself, and its items need room inside it. -/
theorem itemDepth_add_le_iff {items : List Json} : itemDepth items + 1 + level ≤ maxDepth ↔
    level < maxDepth ∧ ∀ item ∈ items, item.depth + (level + 1) ≤ maxDepth := by
  have hle := @itemDepth_le_iff items (maxDepth - (level + 1))
  constructor
  · intro h
    refine ⟨by omega, fun item hitem ↦ ?_⟩
    have hitem' := hle.mp (by omega) item hitem
    omega
  · rintro ⟨hlevel, hitems⟩
    have hitems' := hle.mpr fun item hitem ↦ by have hitem' := hitems item hitem; omega
    omega

theorem fits_array_iff {items : List Json} :
    (array items).Fits level ↔ level < maxDepth ∧ ∀ item ∈ items, item.Fits (level + 1) := by
  rw [Fits, depth, itemDepth_add_le_iff]
  constructor
  · rintro ⟨horder, hlevel, hitems⟩
    cases horder with
    | array h => exact ⟨hlevel, fun item hitem ↦ ⟨h item hitem, hitems item hitem⟩⟩
  · rintro ⟨hlevel, hitems⟩
    exact ⟨.array fun item hitem ↦ (hitems item hitem).1, hlevel,
      fun item hitem ↦ (hitems item hitem).2⟩

theorem fits_object_iff {members : List (String × Json)} :
    (object members).Fits level ↔ level < maxDepth ∧ members.Pairwise (·.1 < ·.1) ∧
      ∀ member ∈ members, member.2.Fits (level + 1) := by
  rw [Fits, depth, memberDepth_eq, itemDepth_add_le_iff, List.forall_mem_map]
  constructor
  · rintro ⟨horder, hlevel, hmembers⟩
    cases horder with
    | object hnames h =>
      exact ⟨hlevel, hnames, fun member hmember ↦ ⟨h member hmember, hmembers member hmember⟩⟩
  · rintro ⟨hlevel, hnames, hmembers⟩
    exact ⟨.object hnames fun member hmember ↦ (hmembers member hmember).1, hlevel,
      fun member hmember ↦ (hmembers member hmember).2⟩

/-! ## Members in order -/

section

variable {name : String} {value : Json} {members : List (String × Json)}

theorem mem_insert {member : String × Json} (h : member ∈ insert name value members) :
    member = (name, value) ∨ member ∈ members := by
  induction members with
  | nil => exact .inl (List.mem_singleton.mp h)
  | cons head members ih =>
    rw [insert] at h
    split at h
    · exact List.mem_cons.mp h
    · split at h
      · exact (List.mem_cons.mp h).imp_right (List.mem_cons_of_mem _)
      · rcases List.mem_cons.mp h with rfl | h
        · exact .inr List.mem_cons_self
        · exact (ih h).imp_right (List.mem_cons_of_mem _)

/-- A member is put where it belongs. -/
theorem pairwise_insert (h : members.Pairwise (·.1 < ·.1)) :
    (insert name value members).Pairwise (·.1 < ·.1) := by
  induction members with
  | nil => exact List.pairwise_singleton _ _
  | cons head members ih =>
    obtain ⟨hhead, htail⟩ := List.pairwise_cons.mp h
    rw [insert]
    split
    · rename_i hlt
      refine List.pairwise_cons.mpr ⟨fun member hmember ↦ ?_, h⟩
      rcases List.mem_cons.mp hmember with rfl | hmember
      · exact hlt
      · exact hlt.trans (hhead member hmember)
    · rename_i hnot
      split
      · rename_i heq
        cases heq
        exact List.pairwise_cons.mpr ⟨hhead, htail⟩
      · rename_i hne
        have hgt : head.1 < name := lt_of_le_of_ne (not_lt.mp hnot) (Ne.symm hne)
        refine List.pairwise_cons.mpr ⟨fun member hmember ↦ ?_, ih htail⟩
        rcases mem_insert hmember with rfl | hmember
        · exact hgt
        · exact hhead member hmember

/-- A member that comes behind all the others is put behind them. -/
theorem insert_of_forall_lt (h : ∀ member ∈ members, member.1 < name) :
    insert name value members = members ++ [(name, value)] := by
  induction members with
  | nil => rfl
  | cons head members ih =>
    have hlt := h head List.mem_cons_self
    rw [insert, if_neg hlt.not_gt, if_neg hlt.ne',
      ih fun member hmember ↦ h member (List.mem_cons_of_mem _ hmember)]
    rfl

end

/-! ## What is read fits -/

/-- An open container as far as it has been read. -/
def Frame.container : Frame → Json
  | array items => .array items
  | object members _ => .object members

/-- Every open container fits inside the ones around it. -/
def FramesFit : List Frame → Prop
  | [] => True
  | frame :: around => frame.container.Fits around.length ∧ FramesFit around

theorem FramesFit.length_le {around : List Frame} (h : FramesFit around) :
    around.length ≤ maxDepth := by
  cases around with
  | nil => exact Nat.zero_le _
  | cons frame around =>
    obtain ⟨hframe, -⟩ := h
    cases frame with
    | array items => exact (fits_array_iff.mp hframe).1
    | object members name => exact (fits_object_iff.mp hframe).1

namespace State

/-- What has been read so far fits. -/
def Fits : State → Prop
  | value around => FramesFit around
  | arrayStart around => (array []).Fits around.length ∧ FramesFit around
  | arrayItem items around => (array items).Fits around.length ∧ FramesFit around
  | objectStart around => (object []).Fits around.length ∧ FramesFit around
  | nextName members around | colon members _ around | objectMember members around =>
    (object members).Fits around.length ∧ FramesFit around
  | finished v => v.Fits 0

variable {around : List Frame}

theorem fits_complete {v : Json} (hv : v.Fits around.length) (h : FramesFit around) :
    (complete v around).Fits := by
  cases around with
  | nil => exact hv
  | cons frame around =>
    obtain ⟨hframe, haround⟩ := h
    cases frame with
    | array items =>
      obtain ⟨hlevel, hitems⟩ := fits_array_iff.mp hframe
      refine ⟨fits_array_iff.mpr ⟨hlevel, fun item hitem ↦ ?_⟩, haround⟩
      rcases List.mem_cons.mp hitem with rfl | hitem
      · exact hv
      · exact hitems item hitem
    | object members name =>
      obtain ⟨hlevel, hnames, hmembers⟩ := fits_object_iff.mp hframe
      refine ⟨fits_object_iff.mpr ⟨hlevel, pairwise_insert hnames, fun member hmember ↦ ?_⟩,
        haround⟩
      rcases mem_insert hmember with rfl | hmember
      · exact hv
      · exact hmembers member hmember

end State

/-- A value that is one token has no parts. -/
def Token.IsPlain : Token → Prop
  | scalar v => v.Ordered ∧ v.depth = 0
  | _ => True

namespace State

variable {around : List Frame} {s s' : State} {t : Token}

theorem fits_of_start (ht : t.IsPlain) (h : start around t = some s') (haround : FramesFit around) :
    s'.Fits := by
  have hlength := haround.length_le
  cases t with
  | scalar v =>
    cases h
    exact fits_complete ⟨ht.1, by rw [ht.2]; omega⟩ haround
  | string text =>
    cases h
    exact fits_complete ⟨.string text, by rw [depth]; omega⟩ haround
  | openArray =>
    rw [start] at h
    split at h
    · rename_i hlevel
      cases h
      exact ⟨fits_array_iff.mpr ⟨hlevel, fun _ h ↦ (nomatch h)⟩, haround⟩
    · cases h
  | openObject =>
    rw [start] at h
    split at h
    · rename_i hlevel
      cases h
      exact ⟨fits_object_iff.mpr ⟨hlevel, .nil, fun _ h ↦ (nomatch h)⟩, haround⟩
    · cases h
  | closeArray | closeObject | colon | comma => cases h

/-- One more token keeps what has been read within bounds. -/
theorem fits_of_step (ht : t.IsPlain) (h : s.step t = some s') (hs : s.Fits) : s'.Fits := by
  cases s with
  | value around => exact fits_of_start ht h hs
  | arrayStart around =>
    cases t with
    | closeArray =>
      cases h
      exact fits_complete hs.1 hs.2
    | openArray | openObject | closeObject | colon | comma | scalar | string =>
      have hframes : FramesFit (.array [] :: around) := hs
      exact fits_of_start ht h hframes
  | arrayItem items around =>
    cases t with
    | comma =>
      cases h
      exact hs
    | closeArray =>
      cases h
      obtain ⟨hlevel, hitems⟩ := fits_array_iff.mp hs.1
      exact fits_complete (fits_array_iff.mpr ⟨hlevel, fun item hitem ↦
        hitems item (List.mem_reverse.mp hitem)⟩) hs.2
    | _ => cases h
  | objectStart around =>
    cases t with
    | closeObject =>
      cases h
      exact fits_complete hs.1 hs.2
    | string text =>
      cases h
      exact hs
    | _ => cases h
  | nextName members around =>
    cases t with
    | string text =>
      cases h
      exact hs
    | _ => cases h
  | colon members name around =>
    cases t with
    | colon =>
      cases h
      exact hs
    | _ => cases h
  | objectMember members around =>
    cases t with
    | comma =>
      cases h
      exact hs
    | closeObject =>
      cases h
      exact fits_complete hs.1 hs.2
    | _ => cases h
  | finished v => cases t <;> cases h

theorem fits_of_foldlM {ts : List Token} (hts : ∀ t ∈ ts, t.IsPlain)
    (h : ts.foldlM step s = some s') (hs : s.Fits) : s'.Fits := by
  induction ts generalizing s with
  | nil =>
    cases h
    exact hs
  | cons t ts ih =>
    obtain ⟨next, hnext, h⟩ := Option.bind_eq_some_iff.mp h
    exact ih (fun t ht ↦ hts t (List.mem_cons_of_mem _ ht)) h
      (fits_of_step (hts t List.mem_cons_self) hnext hs)

end State

namespace Token

theorem isPlain_of_scan {c : Char} {cs rest : List Char} {t : Token}
    (h : scan c cs = some (t, rest)) : t.IsPlain := by
  unfold scan at h
  split at h
  case h_7 | h_8 | h_9 =>
    obtain ⟨rest', -, he⟩ := Option.map_eq_some_iff.mp h
    cases he
    exact ⟨by constructor, rfl⟩
  case h_10 =>
    obtain ⟨r, -, he⟩ := Option.map_eq_some_iff.mp h
    cases he
    trivial
  case h_11 =>
    split at h
    · cases h
    · obtain ⟨n, -, he⟩ := Option.map_eq_some_iff.mp h
      cases he
      exact ⟨.number n, rfl⟩
  all_goals
    cases h
    trivial

theorem isPlain_of_ofChars? {cs : List Char} {ts : List Token} (h : ofChars? cs = some ts) :
    ∀ t ∈ ts, t.IsPlain := by
  fun_induction ofChars? cs generalizing ts with
  | case1 cs hd =>
    cases h
    exact fun _ ht ↦ (nomatch ht)
  | case2 => cases h
  | case3 cs c rest hd t rest' hscan hlt ih =>
    obtain ⟨ts', hts', rfl⟩ := Option.map_eq_some_iff.mp h
    intro t' ht'
    rcases List.mem_cons.mp ht' with rfl | ht'
    · exact isPlain_of_scan hscan
    · exact ih hts' t' ht'

end Token

/-- Whatever is read fits. -/
theorem fits_of_read? {text : String} {v : Json} (h : read? text = some v) : v.Fits 0 := by
  rw [read?] at h
  obtain ⟨ts, hts, h⟩ := Option.bind_eq_some_iff.mp h
  obtain ⟨s, hs, h⟩ := Option.bind_eq_some_iff.mp h
  have hfits : s.Fits := State.fits_of_foldlM (Token.isPlain_of_ofChars? hts) hs trivial
  cases s with
  | finished v' =>
    cases h
    exact hfits
  | _ => cases h

/-! ## What fits is read back -/

namespace State

/-- From `s` the tokens lead to `s'`. -/
def Reads (s : State) (ts : List Token) (s' : State) : Prop := ts.foldlM step s = some s'

namespace Reads

variable {s s' s'' : State} {ts ts' : List Token} {t : Token}

theorem nil (s : State) : Reads s [] s := rfl

theorem cons (h : s.step t = some s') (h' : Reads s' ts s'') : Reads s (t :: ts) s'' := by
  rw [Reads, List.foldlM_cons, h]
  exact h'

theorem append (h : Reads s ts s') (h' : Reads s' ts' s'') : Reads s (ts ++ ts') s'' := by
  rw [Reads, List.foldlM_append, h]
  exact h'

theorem snoc (h : Reads s ts s') (h' : s'.step t = some s'') : Reads s (ts ++ [t]) s'' :=
  h.append (cons h' (nil s''))

end Reads

theorem step_openArray {around : List Frame} (h : around.length < maxDepth) :
    (value around).step .openArray = some (.arrayStart around) := if_pos h

theorem step_openObject {around : List Frame} (h : around.length < maxDepth) :
    (value around).step .openObject = some (.objectStart around) := if_pos h

/-- No value starts with the end of an array, so the first item is read like any other. -/
theorem reads_arrayStart {v : Json} {around : List Frame} {s : State}
    (h : Reads (value (.array [] :: around)) v.tokens s) :
    Reads (arrayStart around) v.tokens s := by
  cases v with
  | null | bool | number | string => exact h
  | array items => cases items <;> exact h
  | object members => cases members <;> exact h

mutual

/-- The tokens of a value that fits are read as the value. -/
theorem reads_tokens : (v : Json) → (around : List Frame) → v.Fits around.length →
    Reads (value around) v.tokens (complete v around)
  | .null, around, _ => .cons rfl (.nil _)
  | .bool b, around, _ => .cons rfl (.nil _)
  | .number n, around, _ => .cons rfl (.nil _)
  | .string s, around, _ => .cons rfl (.nil _)
  | .array [], around, h => by
    obtain ⟨hlevel, -⟩ := fits_array_iff.mp h
    exact .cons (step_openArray hlevel) (.cons rfl (.nil _))
  | .array (item :: items), around, h => by
    obtain ⟨hlevel, hitems⟩ := fits_array_iff.mp h
    have hitem := reads_tokens item (.array [] :: around) (hitems item List.mem_cons_self)
    have hrest := reads_itemTokens items [item] around fun item' hitem' ↦
      hitems item' (List.mem_cons_of_mem _ hitem')
    refine .snoc ((Reads.cons (step_openArray hlevel) (reads_arrayStart hitem)).append hrest) ?_
    rw [step, List.reverse_append, List.reverse_reverse]
    rfl
  | .object [], around, h => by
    obtain ⟨hlevel, -⟩ := fits_object_iff.mp h
    exact .cons (step_openObject hlevel) (.cons rfl (.nil _))
  | .object ((name, v) :: members), around, h => by
    obtain ⟨hlevel, hnames, hmembers⟩ := fits_object_iff.mp h
    have hvalue := reads_tokens v (.object [] name :: around)
      (hmembers (name, v) List.mem_cons_self)
    have hrest := reads_memberTokens members [(name, v)] around hnames fun member hmember ↦
      hmembers member (List.mem_cons_of_mem _ hmember)
    refine .snoc (.append ?_ hrest) rfl
    exact .cons (step_openObject hlevel) (.cons rfl (.cons rfl hvalue))

/-- Items are read behind the ones before them. -/
theorem reads_itemTokens : (items read : List Json) → (around : List Frame) →
    (∀ item ∈ items, item.Fits (around.length + 1)) →
    Reads (arrayItem read around) (itemTokens items) (arrayItem (items.reverse ++ read) around)
  | [], read, around, _ => .nil _
  | item :: items, read, around, h => by
    have hitem := reads_tokens item (.array read :: around) (h item List.mem_cons_self)
    have hrest := reads_itemTokens items (item :: read) around fun item' hitem' ↦
      h item' (List.mem_cons_of_mem _ hitem')
    rw [List.reverse_cons, List.append_assoc]
    exact (Reads.cons rfl hitem).append hrest

/-- Members are read behind the ones before them, since their names come later. -/
theorem reads_memberTokens : (members read : List (String × Json)) → (around : List Frame) →
    (read ++ members).Pairwise (·.1 < ·.1) →
    (∀ member ∈ members, member.2.Fits (around.length + 1)) →
    Reads (objectMember read around) (memberTokens members) (objectMember (read ++ members) around)
  | [], read, around, _, _ => by
    rw [List.append_nil]
    exact .nil _
  | (name, v) :: members, read, around, hnames, h => by
    have hvalue := reads_tokens v (.object read name :: around)
      (h (name, v) List.mem_cons_self)
    have hbefore : ∀ member ∈ read, member.1 < name := fun member hmember ↦
      (List.pairwise_append.mp hnames).2.2 member hmember _ List.mem_cons_self
    have hcomplete : complete v (.object read name :: around) =
        objectMember (read ++ [(name, v)]) around :=
      congrArg (objectMember · around) (insert_of_forall_lt hbefore)
    rw [hcomplete] at hvalue
    have hsplit : read ++ (name, v) :: members = read ++ [(name, v)] ++ members :=
      (List.append_assoc _ [_] _).symm
    rw [hsplit] at hnames ⊢
    have hrest := reads_memberTokens members (read ++ [(name, v)]) around hnames
      fun member hmember ↦ h member (List.mem_cons_of_mem _ hmember)
    exact (Reads.cons rfl (.cons rfl (.cons rfl hvalue))).append hrest

end

end State

/-- **Written values are read back**, whichever way they are laid out. -/
theorem read?_text {l : Layout} (hl : l.IsBlank) {v : Json} (hv : v.Fits 0) (blanks : String)
    (hblanks : ∀ c ∈ blanks.toList, Token.isSpace c = true) :
    read? (v.text l ++ blanks) = some v := by
  have hreads : v.tokens.foldlM State.step (.value []) = some (.finished v) :=
    State.reads_tokens v [] hv
  rw [read?, ofText?_text hl v blanks hblanks, Option.bind_eq_bind, Option.bind_some, hreads]
  rfl

/-! ## Readers -/

namespace Reader

/-- What can be relied on. -/
structure Lawful (reader : Json.Reader) : Prop where
  /-- Whatever is read fits. -/
  fits {text : String} {v : Json} (h : reader.read text = .ok v) : v.Fits 0
  /-- What fits is read back from the line it is printed as. -/
  read_line {v : Json} (h : v.Fits 0) (pretty : Bool) :
    reader.read (v.text (if pretty then .pretty else .compact) ++ "\n") = .ok v

theorem exact_read_eq_ok_iff {text : String} {v : Json} :
    Reader.exact.read text = .ok v ↔ read? text = some v := by
  simp only [exact]
  cases read? text <;> simp

/-- A reader that rounds to the nearest double reads back what it has read. -/
theorem exact_lawful : Reader.exact.Lawful where
  fits h := fits_of_read? (exact_read_eq_ok_iff.mp h)
  read_line h pretty :=
    exact_read_eq_ok_iff.mpr (read?_text (Layout.isBlank_ite pretty) h "\n" isSpace_newline)

end Reader

end Json
end RecordQuery
