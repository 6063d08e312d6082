import RecordQuery.Selector
import RecordQuery.Proofs.Json.Numerals

/-!
# Numbers are compared by their texts

A stored number is compared with an integer by way of its text: the text is read as a decimal
number, and only if that fails are two doubles compared.  `Json.Number.compare` takes a shorter way
and looks at the digits themselves.  Here the long way is taken, with the readers of decimal numbers
left open: all that is asked of them is that between them they read what 96 bits and 28 decimal
places hold, as it is written, and nothing else.

* `Json.Denotes`: the decimal number that a text says.
* `ReadsWords`: what is asked of the readers.
* `exists_denotes_text`: the text of a number says the value of its digits, and fits when they do.
* `toRat_written_ne_of_not_fitsWord`: what does not fit is equal to no integer of `64` bits.
* `readsWords_word`: there are two readers like that.
* `orderAsText?_exact`: the answer is the order of what is written and the integer.
-/

set_option autoImplicit false

namespace RecordQuery

/-! ## What does not fit -/

namespace Double

/-- A number with few digits before the point and none behind it is found on the grid of the
integers. -/
theorem exists_neighbour_of_magnitude_eq {d : Double} {n : Nat} (hd : d.mantissa ≠ 0)
    (h : d.magnitude = n) (hlt : n < 10 ^ 18) :
    ∃ i < 19, ∃ m ∈ d.neighbours (d.decimalBound - Int.ofNat i), ofDecimal? m = some d := by
  have hcount : Decimal.digitCount n ≤ 18 :=
    (Nat.length_toDigits_le_iff (by decide) (by decide)).mpr hlt
  have hbound : d.decimalBound = Decimal.digitCount n := by
    have hone : Decimal.digitCount 1 = 1 := rfl
    rw [decimalBound, h, Rat.num_natCast, Rat.den_natCast, Int.natAbs_natCast, hone]
    simp only [Int.ofNat_eq_natCast]
    omega
  refine ⟨Decimal.digitCount n, by omega, ⟨d.negative, n, 0⟩, ?_, ?_⟩
  · have hgrid : d.decimalBound - Int.ofNat (Decimal.digitCount n) = 0 := by
      rw [hbound, Int.ofNat_eq_natCast, sub_self]
    have hround : roundEven n = n := roundEven_intCast n
    have hfloor : (n : Rat).floor = n := Rat.floor_intCast n
    rw [hgrid, neighbours, h, zpow_zero, div_one, hfloor, Int.toNat_natCast, if_pos hround]
    exact List.mem_cons_self
  · refine ofDecimal?_of_magnitude_eq hd rfl ?_
    rw [Decimal.magnitude, zpow_zero, mul_one, h]

/-- Digits that are too long for a word do not make up an integer of `64` bits: they are beyond all
of these, or they have a fraction. -/
theorem toRat_shortest_ne_of_not_fitsWord {d : Double} (h : ¬ d.shortest.FitsWord) {n : Int}
    (hn : n.natAbs ≤ 2 ^ 63) : d.shortest.toRat ≠ n := by
  intro heq
  have hmagnitude : d.shortest.magnitude = n.natAbs := by
    rw [← abs_of_nonneg d.shortest.magnitude_nonneg, ← abs_signed d.shortest.negative,
      ← Decimal.toRat, heq, Nat.cast_natAbs, Int.cast_abs]
  have hbound : (n.natAbs : Rat) ≤ 2 ^ 63 := by exact_mod_cast hn
  have hmantissa : d.mantissa ≠ 0 := by
    intro hzero
    rw [shortest, if_pos hzero] at h
    exact h (fitsWord_zero_exponent.mpr (by decide))
  rcases shortest_cases hmantissa with ⟨hread, hdigits⟩ | ⟨hexact, hgrids⟩
  · have hcoefficient := (nearest?_of_ofDecimal? hread hmantissa).1
    have hpos : 0 < d.shortest.magnitude := mul_pos (by positivity) (ten_zpow_pos _)
    rw [hmagnitude] at hpos
    rcases far_or_near_of_not_fitsWord h hdigits with hfar | hnear
    · have hbeyond : (2 : Rat) ^ 63 < 2 ^ (96 : Int) := by norm_num
      linarith
    · have hone : (1 : Rat) ≤ n.natAbs := by exact_mod_cast hpos
      have hbelow : (2 : Rat) ^ (-36 : Int) < 1 := by norm_num
      linarith
  · rw [hexact] at h hmagnitude
    rw [magnitude_exactDecimal] at hmagnitude
    rcases magnitude_of_not_fitsWord h with hsmall | hlarge
    · have hlt : n.natAbs < 10 ^ 18 := by
        rw [hmagnitude] at hsmall
        have hlt : n.natAbs < 2 ^ 53 := by exact_mod_cast hsmall
        exact hlt.trans (by decide)
      obtain ⟨i, hi, m, hm, hread⟩ := exists_neighbour_of_magnitude_eq hmantissa hmagnitude hlt
      exact hgrids i hi m hm hread
    · linarith

end Double

namespace Json

/-! ## Texts of numbers -/

/-- The text is one number, and this is the number as it is written. -/
def Denotes (cs : List Char) (d : Decimal) : Prop :=
  ∃ n, Numeral.scan cs = some (n, []) ∧ n.toDecimal = d

theorem Denotes.unique {cs : List Char} {d d' : Decimal} (h : Denotes cs d) (h' : Denotes cs d') :
    d = d' := by
  obtain ⟨n, hn, rfl⟩ := h
  obtain ⟨n', hn', rfl⟩ := h'
  rw [hn] at hn'
  cases hn'
  rfl

theorem toRat_padded (d : Decimal) (k : Nat) : (d.padded k).toRat = d.toRat := by
  rw [Decimal.toRat, d.magnitude_padded k]
  rfl

/-- Zeros at the end are written only behind digits that leave room for them. -/
theorem fitsWord_padded_zerosBehind (d : Decimal) :
    (d.padded (Numeral.zerosBehind d)).FitsWord ↔ d.FitsWord := by
  rw [Numeral.zerosBehind]
  split
  · rename_i h
    obtain ⟨hpositional, hexponent⟩ := h
    obtain ⟨k, hk⟩ := Int.eq_ofNat_of_zero_le hexponent
    have hleading : ((digits d.coefficient).length : Int) - 1 + d.exponent ≤ 15 :=
      (of_decide_eq_true hpositional).2
    have hdigits : (digits d.coefficient).length + k ≤ 16 := by omega
    have hsmall : d.coefficient * 10 ^ k < 10 ^ 16 :=
      calc d.coefficient * 10 ^ k < 10 ^ (digits d.coefficient).length * 10 ^ k :=
            Nat.mul_lt_mul_of_pos_right (Decimal.lt_pow_digitCount _) (by positivity)
        _ = 10 ^ ((digits d.coefficient).length + k) := (pow_add _ _ _).symm
        _ ≤ 10 ^ 16 := Nat.pow_le_pow_right (by decide) hdigits
    refine iff_of_true ?_ ?_
    · have hbelow : ¬ 0 ≤ d.exponent - (d.exponent.toNat + 1 : Nat) := by omega
      rw [Decimal.FitsWord, Decimal.padded, if_neg hbelow, hk, Int.toNat_natCast, pow_succ,
        ← mul_assoc]
      dsimp only
      omega
    · rw [Decimal.FitsWord, if_pos hexponent, hk, Int.toNat_natCast, Nat.pow_eq]
      omega
  · rw [Decimal.padded, pow_zero, mul_one, Nat.cast_zero, sub_zero]

/-- The text of a number says the value of its digits, and it fits a word when they do. -/
theorem exists_denotes_text (n : Number) :
    ∃ d, Denotes n.text d ∧ d.toRat = n.written.toRat ∧ (d.FitsWord ↔ n.written.FitsWord) := by
  have hends : Numeral.Ends [] := nofun
  cases n with
  | integer value hrange =>
    have hscan := Numeral.scan_signedDigits value hends
    rw [List.append_nil] at hscan
    have hdecimal : Numeral.toDecimal ⟨decide (value < 0), digits value.natAbs, [], 0, true⟩ =
        Decimal.ofInt value := by
      rw [Numeral.toDecimal, List.append_nil, natOf_digits]
      rfl
    exact ⟨_, ⟨_, hscan, hdecimal⟩, rfl, Iff.rfl⟩
  | double value =>
    obtain ⟨m, hscan, -, hdecimal⟩ :=
      Numeral.scan_decimalText value.shortest exponent_shortest hends
    rw [List.append_nil] at hscan
    exact ⟨_, ⟨m, hscan, hdecimal⟩, toRat_padded _ _, fitsWord_padded_zerosBehind _⟩

/-! ## Readers of decimal numbers -/

/-- What is asked of two readers of decimal numbers, one for plain digits and one for an exponent:
whatever number is written, they read it as it is written if `96` bits and `28` decimal places hold
it, and refuse it otherwise. -/
structure ReadsWords (plain scientific : List Char → Option Rat) : Prop where
  /-- What one of them reads fits and is right. -/
  exact : ∀ (n : Number) (d : Decimal) (x : Rat), Denotes n.text d →
    plain n.text = some x ∨ scientific n.text = some x → d.FitsWord ∧ x = d.toRat
  /-- What fits is read by one of them. -/
  total : ∀ (n : Number) (d : Decimal), Denotes n.text d → d.FitsWord →
    plain n.text ≠ none ∨ scientific n.text ≠ none

variable {plain scientific : List Char → Option Rat}

theorem ReadsWords.or_eq (h : ReadsWords plain scientific) {n : Number} {d : Decimal}
    (hd : Denotes n.text d) :
    (plain n.text).or (scientific n.text) = if d.FitsWord then some d.toRat else none := by
  cases hx : (plain n.text).or (scientific n.text) with
  | none =>
    obtain ⟨hplain, hscientific⟩ := Option.or_eq_none_iff.mp hx
    have hfits : ¬ d.FitsWord := by
      intro hfits
      rcases h.total n d hd hfits with hne | hne
      · exact hne hplain
      · exact hne hscientific
    rw [if_neg hfits]
  | some x =>
    have hread : plain n.text = some x ∨ scientific n.text = some x := by
      rcases Option.or_eq_some_iff.mp hx with hplain | ⟨-, hscientific⟩
      · exact .inl hplain
      · exact .inr hscientific
    obtain ⟨hfits, rfl⟩ := h.exact n d x hd hread
    rw [if_pos hfits]

/-- Reads one number that fits a word, however it is written. -/
def wordOf? (cs : List Char) : Option Rat :=
  match Numeral.scan cs with
  | some (n, []) => if n.toDecimal.FitsWord then some n.toDecimal.toRat else none
  | _ => none

/-- Reads a number without an exponent. -/
def plainWord? (cs : List Char) : Option Rat := if 'e' ∈ cs then none else wordOf? cs

/-- Reads a number with an exponent. -/
def scientificWord? (cs : List Char) : Option Rat := if 'e' ∈ cs then wordOf? cs else none

theorem wordOf?_of_denotes {cs : List Char} {d : Decimal} (h : Denotes cs d) :
    wordOf? cs = if d.FitsWord then some d.toRat else none := by
  obtain ⟨n, hn, rfl⟩ := h
  rw [wordOf?, hn]

theorem plainWord?_or_scientificWord? (cs : List Char) :
    (plainWord? cs).or (scientificWord? cs) = wordOf? cs := by
  by_cases h : 'e' ∈ cs
  · rw [plainWord?, scientificWord?, if_pos h, if_pos h, Option.none_or]
  · rw [plainWord?, scientificWord?, if_neg h, if_neg h, Option.or_none]

theorem readsWords_word : ReadsWords plainWord? scientificWord? where
  exact n d x hd hx := by
    have hword : wordOf? n.text = some x := by
      by_cases he : 'e' ∈ n.text
      · rwa [plainWord?, scientificWord?, if_pos he, if_pos he, or_iff_right nofun] at hx
      · rwa [plainWord?, scientificWord?, if_neg he, if_neg he, or_iff_left nofun] at hx
    rw [wordOf?_of_denotes hd] at hword
    by_cases hfits : d.FitsWord
    · rw [if_pos hfits, Option.some.injEq] at hword
      exact ⟨hfits, hword.symm⟩
    · rw [if_neg hfits] at hword
      cases hword
  total n d hd hfits := by
    have hor := plainWord?_or_scientificWord? n.text
    rw [wordOf?_of_denotes hd, if_pos hfits] at hor
    rcases Option.or_eq_some_iff.mp hor with hplain | ⟨-, hscientific⟩
    · exact .inl (by rw [hplain]; nofun)
    · exact .inr (by rw [hscientific]; nofun)

/-! ## Comparing texts -/

/-- How a number compares with an integer by way of its text: as a decimal number if one of the
readers takes the text, and as a double otherwise. -/
def Number.orderAsText? (plain scientific : List Char → Option Rat) (n : Number) (i : Integer) :
    Option Ordering :=
  match (plain n.text).or (scientific n.text) with
  | some x => some (compareOfLessAndEq x (i.toInt : Rat))
  | none => some (compareOfLessAndEq n.toDouble.toRat (Double.ofInt i.toInt).toRat)

/-- What does not fit a word is no integer of `64` bits. -/
theorem toRat_written_ne_of_not_fitsWord {n : Number} (h : ¬ n.written.FitsWord) (i : Integer) :
    n.written.toRat ≠ (i.toInt : Rat) := by
  cases n with
  | integer value hrange =>
    exact absurd (Double.fitsWord_zero_exponent.mpr (by omega)) h
  | double value => exact Double.toRat_shortest_ne_of_not_fitsWord h (natAbs_toInt_le i)

/-- The way through the text ends where the shorter way does. -/
theorem orderAsText?_eq (h : ReadsWords plain scientific) (n : Number) (i : Integer) :
    n.orderAsText? plain scientific i = some (n.compare i) := by
  obtain ⟨d, hd, hvalue, hfits⟩ := exists_denotes_text n
  rw [Number.orderAsText?, Number.compare, h.or_eq hd]
  by_cases hword : n.written.FitsWord
  · rw [if_pos hword, if_pos (hfits.mpr hword), hvalue]
  · rw [if_neg hword, if_neg fun hd ↦ hword (hfits.mp hd)]

/-- **Numbers are compared exactly, whichever way is taken**: the answer is the order of the number
that the text says and the integer.  A text that is refused is equal to no integer, and two numbers
are never put on the wrong sides of one. -/
theorem orderAsText?_exact (h : ReadsWords plain scientific) (n : Number) (i : Integer) :
    ∃ d, Denotes n.text d ∧ d.toRat = n.written.toRat ∧
      n.orderAsText? plain scientific i = some (compareOfLessAndEq d.toRat (i.toInt : Rat)) ∧
      order? (.number n) (.integer i) = n.orderAsText? plain scientific i ∧
      ((plain n.text).or (scientific n.text) = none →
        n.orderAsText? plain scientific i ≠ some .eq) ∧
      ∀ (m : Number) (d' : Decimal), Denotes m.text d' →
        m.orderAsText? plain scientific i ≠ some .gt →
          n.orderAsText? plain scientific i ≠ some .lt → d'.toRat ≤ d.toRat := by
  obtain ⟨d, hd, hvalue, hfits⟩ := exists_denotes_text n
  have hexact : ∀ (m : Number) (d' : Decimal), Denotes m.text d' →
      m.orderAsText? plain scientific i =
        some (compareOfLessAndEq d'.toRat (i.toInt : Rat)) := by
    intro m d' hd'
    obtain ⟨d'', hd'', hvalue'', -⟩ := exists_denotes_text m
    rw [orderAsText?_eq h, m.compare_eq, hd'.unique hd'', hvalue'']
  refine ⟨d, hd, hvalue, hexact n d hd, ?_, ?_, ?_⟩
  · rw [orderAsText?_eq h]
    rfl
  · intro hnone
    rw [h.or_eq hd] at hnone
    have hword : ¬ n.written.FitsWord := by
      intro hword
      rw [if_pos (hfits.mpr hword)] at hnone
      cases hnone
    rw [hexact n d hd, hvalue, Ne, Option.some.injEq, compareOfLessAndEq_eq_eq le_refl not_le]
    exact toRat_written_ne_of_not_fitsWord hword i
  · intro m d' hd' hm hn
    rw [hexact m d' hd', Ne, Option.some.injEq,
      compareOfLessAndEq_eq_gt le_antisymm le_total not_le, not_lt] at hm
    rw [hexact n d hd, Ne, Option.some.injEq, compareOfLessAndEq_eq_lt, not_lt] at hn
    exact hm.trans hn

/-- The double that `1e30` stands for. -/
def huge : Number := .double ⟨false, 7105427357601002, 47, by decide⟩

theorem text_huge : huge.text = "1e+30".toList := by decide +kernel

theorem denotes_huge : Denotes huge.text ⟨false, 1, 30⟩ := by
  rw [text_huge]
  exact ⟨⟨false, ['1'], [], 30, false⟩, by decide +kernel, by decide +kernel⟩

/-- Both readers refuse `1e30`, and it is greater than `5` by the doubles. -/
theorem orderAsText?_exact_huge : ReadsWords plainWord? scientificWord? ∧
    (plainWord? huge.text).or (scientificWord? huge.text) = none ∧
    huge.orderAsText? plainWord? scientificWord? 5 = some .gt := by
  obtain ⟨d, hd, -, horder, -⟩ := orderAsText?_exact readsWords_word huge 5
  rw [hd.unique denotes_huge] at horder
  refine ⟨readsWords_word, ?_, horder.trans (by decide +kernel)⟩
  rw [plainWord?_or_scientificWord?, wordOf?_of_denotes denotes_huge]
  decide

end Json
end RecordQuery
