import RecordQuery.Json.Numeral
import RecordQuery.Proofs.ShortestDigits
import RecordQuery.Text.Ranges

/-!
# Written numbers are read back

An integer is written with its digits and a double with its shortest digits, and reading either
gives the number again.  A double is always written with a point or an exponent, so that it is not
taken for an integer, and a leading zero is written only where it is the whole integer part.

A number is read as far as it goes.  What stands behind it must therefore not go on with it, and
this is what `Numeral.Ends` says.

* `unsigned?_append`: a number is read part by part.
* `readsAs_positional_of_nonneg`, `readsAs_positional_of_neg`, `readsAs_scientific`: the ways to
  write a decimal number.
* `Number.scan_text`: a written number is read back.
-/

set_option autoImplicit false

namespace RecordQuery
namespace Json

/-! ## Digits -/

/-- One digit or more. -/
def IsRun (ds : List Char) : Prop := ds ≠ [] ∧ ∀ c ∈ ds, c.isDigit = true

theorem isRun_digits (n : Nat) : IsRun (digits n) :=
  ⟨Nat.toDigits_ne_nil, fun _ ↦ Nat.isDigit_of_mem_toDigits (by decide) (by decide)⟩

theorem isRun_zero : IsRun ['0'] := isRun_digits 0

theorem IsRun.append_replicate {ds : List Char} (h : IsRun ds) (k : Nat) :
    IsRun (ds ++ List.replicate k '0') := by
  refine ⟨List.append_ne_nil_of_left_ne_nil h.1 _, fun c hc ↦ ?_⟩
  rcases List.mem_append.mp hc with hc | hc
  · exact h.2 c hc
  · rw [List.eq_of_mem_replicate hc]
    decide

theorem IsRun.replicate_append {ds : List Char} (h : IsRun ds) (k : Nat) :
    IsRun (List.replicate k '0' ++ ds) := by
  refine ⟨List.append_ne_nil_of_right_ne_nil _ h.1, fun c hc ↦ ?_⟩
  rcases List.mem_append.mp hc with hc | hc
  · rw [List.eq_of_mem_replicate hc]
    decide
  · exact h.2 c hc

/-- The digits of a number do not start with a zero, unless the number is zero. -/
theorem head?_digits {n : Nat} (h : n ≠ 0) : (digits n).head? ≠ some '0' := by
  induction n using Nat.strongRecOn with
  | ind n ih =>
    rcases Nat.lt_or_ge n 10 with hlt | hge
    · have hdigit : ∀ m < 10, m ≠ 0 → Nat.digitChar m ≠ '0' := by decide
      rw [digits, Nat.toDigits_of_lt_base hlt]
      exact fun hc ↦ hdigit n hlt h (Option.some.inj hc)
    · rw [digits, Nat.toDigits_of_base_le (by decide) hge,
        List.head?_append_of_ne_nil _ Nat.toDigits_ne_nil]
      exact ih (n / 10) (Nat.div_lt_self (Nat.pos_of_ne_zero h) (by decide)) (by omega)

theorem natOf_digits (n : Nat) : Numeral.natOf (digits n) = n := Nat.ofDigitChars_ten_toDigits

theorem natOf_append_zeros (ds : List Char) (k : Nat) :
    Numeral.natOf (ds ++ List.replicate k '0') = Numeral.natOf ds * 10 ^ k := by
  rw [Numeral.natOf, Nat.ofDigitChars_append, Nat.ofDigitChars_replicate_zero, Nat.mul_comm]
  rfl

theorem natOf_zeros_append (k : Nat) (ds : List Char) :
    Numeral.natOf (List.replicate k '0' ++ ds) = Numeral.natOf ds := by
  rw [Numeral.natOf, Nat.ofDigitChars_append, Nat.ofDigitChars_replicate_zero, Nat.mul_zero]
  rfl

namespace Numeral

/-! ## The parts of a number -/

/-- A number that stands in front of `rest` ends there. -/
def Ends (rest : List Char) : Prop :=
  ∀ c ∈ rest.head?, c.isDigit = false ∧ c ≠ '.' ∧ c ≠ 'e' ∧ c ≠ 'E'

variable {ds cs cs' rest : List Char}

theorem digits?_append (hds : IsRun ds) (hcs : ∀ c ∈ cs.head?, c.isDigit = false) :
    digits? (ds ++ cs) = some (ds, cs) := by
  obtain ⟨htake, hdrop⟩ := Text.takeWhile_append hds.2 hcs
  rw [digits?, htake, hdrop]
  cases ds with
  | nil => exact absurd rfl hds.1
  | cons d ds => rfl

theorem whole?_append (hds : IsRun ds) (hzero : ds.head? = some '0' → ds = ['0'])
    (hcs : ∀ c ∈ cs.head?, c.isDigit = false) : whole? (ds ++ cs) = some (ds, cs) := by
  rw [whole?, digits?_append hds hcs]
  split
  · rename_i heq
    cases heq
    cases hzero rfl
  · rfl

theorem fraction?_point (hds : IsRun ds) (hcs : ∀ c ∈ cs.head?, c.isDigit = false) :
    fraction? ('.' :: (ds ++ cs)) = some (ds, cs) :=
  digits?_append hds hcs

theorem fraction?_of_ne (h : ∀ c ∈ cs.head?, c ≠ '.') : fraction? cs = some ([], cs) := by
  rw [fraction?]
  rintro cs' rfl
  exact h '.' rfl rfl

theorem exponent?_of_ne (h : ∀ c ∈ cs.head?, c ≠ 'e' ∧ c ≠ 'E') :
    exponent? cs = some (none, cs) := by
  cases cs with
  | nil => rfl
  | cons c cs =>
    obtain ⟨he, hE⟩ := h c rfl
    rw [exponent?, if_neg (by simp [he, hE])]

/-- An exponent as it is written. -/
def exponentText (x : Int) : List Char := 'e' :: (if x < 0 then '-' else '+') :: digits x.natAbs

theorem exponent?_written (x : Int) (hrest : ∀ c ∈ rest.head?, c.isDigit = false) :
    exponent? (exponentText x ++ rest) = some (some x, rest) := by
  have hread := digits?_append (isRun_digits x.natAbs) hrest
  rw [exponentText, List.cons_append, List.cons_append, exponent?, if_pos (.inl rfl)]
  by_cases h : x < 0
  · rw [if_pos h, exponentSign, hread, Option.map_some, if_pos rfl, natOf_digits]
    congr
    simp only [Int.ofNat_eq_natCast]
    omega
  · rw [if_neg h, exponentSign, hread, Option.map_some, if_neg Bool.false_ne_true,
      natOf_digits]
    congr
    simp only [Int.ofNat_eq_natCast]
    omega

/-- A number is read part by part. -/
theorem unsigned?_append (negative : Bool) {fraction : List Char} {exponent : Option Int}
    (hds : IsRun ds) (hzero : ds.head? = some '0' → ds = ['0'])
    (hcs : ∀ c ∈ cs.head?, c.isDigit = false) (hfraction : fraction? cs = some (fraction, cs'))
    (hexponent : exponent? cs' = some (exponent, rest)) :
    unsigned? negative (ds ++ cs) = some (⟨negative, ds, fraction, exponent.getD 0,
      fraction.isEmpty && exponent.isNone⟩, rest) := by
  rw [unsigned?, whole?_append hds hzero hcs]
  simp only [Option.bind_eq_bind, Option.bind_some, hfraction, hexponent]
  rfl

/-- The sign is read first, and only a minus sign is taken for one. -/
theorem scan_signed {negative : Bool} {n : Numeral} (h : unsigned? negative cs = some (n, rest)) :
    scan (if negative then '-' :: cs else cs) = some (n, rest) := by
  cases negative with
  | true => exact h
  | false =>
    rw [if_neg Bool.false_ne_true, scan]
    · exact h
    · rintro cs' rfl
      cases h

/-! ## Whole numbers -/

theorem scan_signedDigits (x : Int) (h : Ends rest) : scan (signedDigits x ++ rest) =
    some (⟨decide (x < 0), digits x.natAbs, [], 0, true⟩, rest) := by
  have hsign : signedDigits x ++ rest =
      if decide (x < 0) then '-' :: (digits x.natAbs ++ rest) else digits x.natAbs ++ rest := by
    rw [signedDigits]
    by_cases hx : x < 0 <;> simp [hx]
  have hzero : (digits x.natAbs).head? = some '0' → digits x.natAbs = ['0'] := by
    intro hhead
    by_cases hx : x.natAbs = 0
    · rw [hx, digits, Nat.toDigits_zero]
    · exact absurd hhead (head?_digits hx)
  rw [hsign]
  exact scan_signed (unsigned?_append _ (isRun_digits _) hzero (fun c hc ↦ (h c hc).1)
    (fraction?_of_ne fun c hc ↦ (h c hc).2.1) (exponent?_of_ne fun c hc ↦ (h c hc).2.2))

/-! ## Decimal numbers -/

/-- Without its sign, `text` in front of `rest` is read as `d` with `k` zeros at the end of the
digits, and is not taken for an integer. -/
def ReadsAs (text : List Char) (d : Decimal) (k : Nat) (rest : List Char) : Prop :=
  ∃ n, unsigned? d.negative (text ++ rest) = some (n, rest) ∧ n.isInteger = false ∧
    n.toDecimal = d.padded k

/-- The zeros written at the end of the digits: those up to the point and the one behind it. -/
def zerosBehind (d : Decimal) : Nat :=
  if isPositional ((digits d.coefficient).length - 1 + d.exponent) ∧ 0 ≤ d.exponent then
    d.exponent.toNat + 1
  else 0

variable {d : Decimal}

/-- Digits with a point among them, or with zeros around it, are read as the number they make up. -/
theorem readsAs_point {fraction : List Char} (k : Nat) (hds : IsRun ds)
    (hzero : ds.head? = some '0' → ds = ['0']) (hfraction : IsRun fraction)
    (hvalue : natOf (ds ++ fraction) = d.coefficient * 10 ^ k)
    (hexponent : -(fraction.length : Int) = d.exponent - k) (h : Ends rest) :
    ReadsAs (ds ++ '.' :: fraction) d k rest := by
  have hpoint : ∀ c ∈ ('.' :: (fraction ++ rest)).head?, c.isDigit = false := by
    rintro _ ⟨⟩
    decide
  have hread := unsigned?_append d.negative hds hzero hpoint
    (fraction?_point hfraction fun c hc ↦ (h c hc).1) (exponent?_of_ne fun c hc ↦ (h c hc).2.2)
  rw [← List.cons_append, ← List.append_assoc, List.isEmpty_eq_false_iff.mpr hfraction.1] at hread
  refine ⟨_, hread, rfl, ?_⟩
  rw [toDecimal, hvalue, Decimal.padded, ← hexponent]
  congr 1
  exact zero_sub _

/-- All digits stand before the point when the last one stands for `10 ^ 0` or more. -/
theorem readsAs_positional_of_nonneg (he : 0 ≤ d.exponent) (hd : d.coefficient = 0 → d.exponent = 0)
    (h : Ends rest) :
    ReadsAs (positional (digits d.coefficient) d.exponent) d (d.exponent.toNat + 1) rest := by
  have hrun := isRun_digits d.coefficient
  have hzero : (digits d.coefficient ++ List.replicate d.exponent.toNat '0').head? = some '0' →
      digits d.coefficient ++ List.replicate d.exponent.toNat '0' = ['0'] := by
    intro hhead
    by_cases h0 : d.coefficient = 0
    · rw [h0, hd h0]
      rfl
    · rw [List.head?_append_of_ne_nil _ hrun.1] at hhead
      exact absurd hhead (head?_digits h0)
  have hvalue : natOf (digits d.coefficient ++ List.replicate d.exponent.toNat '0' ++ ['0']) =
      d.coefficient * 10 ^ (d.exponent.toNat + 1) := by
    have hzeros := natOf_append_zeros (digits d.coefficient) (d.exponent.toNat + 1)
    rwa [List.replicate_succ', ← List.append_assoc, natOf_digits] at hzeros
  rw [positional, if_pos he]
  have htext : digits d.coefficient ++ List.replicate d.exponent.toNat '0' ++ ['.', '0'] =
      digits d.coefficient ++ List.replicate d.exponent.toNat '0' ++ '.' :: ['0'] := rfl
  rw [htext]
  refine readsAs_point (d.exponent.toNat + 1) (hrun.append_replicate _) hzero isRun_zero hvalue ?_ h
  rw [List.length_singleton]
  omega

/-- Otherwise some digits stand behind it, and there may be none left to stand before it. -/
theorem readsAs_positional_of_neg (he : d.exponent < 0) (hd : d.coefficient ≠ 0) (h : Ends rest) :
    ReadsAs (positional (digits d.coefficient) d.exponent) d 0 rest := by
  have hrun := isRun_digits d.coefficient
  have hdigits := natOf_digits d.coefficient
  have hhead := head?_digits hd
  generalize digits d.coefficient = ds at hrun hdigits hhead ⊢
  simp only [positional, if_neg (not_le.mpr he)]
  split
  · generalize hw : (ds.length + d.exponent).toNat = w
    have htake : IsRun (ds.take w) := by
      refine ⟨fun hnil ↦ ?_, fun c hc ↦ hrun.2 c (List.mem_of_mem_take hc)⟩
      have hlength := congrArg List.length hnil
      rw [List.length_take, List.length_nil] at hlength
      omega
    have hdrop : IsRun (ds.drop w) := by
      refine ⟨fun hnil ↦ ?_, fun c hc ↦ hrun.2 c (List.mem_of_mem_drop hc)⟩
      have hlength := List.drop_eq_nil_iff.mp hnil
      omega
    have hzero : (ds.take w).head? = some '0' → ds.take w = ['0'] := by
      rw [List.head?_take, if_neg (by omega)]
      exact fun hc ↦ absurd hc hhead
    refine readsAs_point 0 htake hzero hdrop ?_ ?_ h
    · rw [List.take_append_drop, hdigits, pow_zero, mul_one]
    · rw [List.length_drop]
      omega
  · generalize hz : (-(ds.length + d.exponent)).toNat = z
    have htext : '0' :: '.' :: List.replicate z '0' ++ ds =
        ['0'] ++ '.' :: (List.replicate z '0' ++ ds) := rfl
    rw [htext]
    refine readsAs_point 0 isRun_zero (fun _ ↦ rfl) (hrun.replicate_append z) ?_ ?_ h
    · have hzeros : ['0'] ++ (List.replicate z '0' ++ ds) = List.replicate (z + 1) '0' ++ ds := rfl
      rw [hzeros, natOf_zeros_append, hdigits, pow_zero, mul_one]
    · rw [List.length_append, List.length_replicate]
      omega

/-- With an exponent, only the first digit stands before the point. -/
theorem readsAs_scientific {x : Int}
    (hx : ((digits d.coefficient).length : Int) - 1 + d.exponent = x) (h : Ends rest) :
    ReadsAs (scientific (digits d.coefficient) x) d 0 rest := by
  have hexponent := exponent?_written x fun c hc ↦ (h c hc).1
  have hrun := isRun_digits d.coefficient
  have hdigits := natOf_digits d.coefficient
  generalize digits d.coefficient = ds at hx hrun hdigits ⊢
  cases ds with
  | nil => exact absurd rfl hrun.1
  | cons c ds =>
    have hc : IsRun [c] := by
      refine ⟨List.cons_ne_nil _ _, fun c' hc' ↦ ?_⟩
      rw [List.mem_singleton.mp hc']
      exact hrun.2 c List.mem_cons_self
    have hzero : [c].head? = some '0' → [c] = ['0'] := by
      rintro ⟨⟩
      rfl
    rw [List.length_cons] at hx
    cases ds with
    | nil =>
      refine ⟨⟨d.negative, [c], [], x, false⟩, ?_, rfl, ?_⟩
      · exact unsigned?_append _ hc hzero (by rintro _ ⟨⟩; decide)
          (fraction?_of_ne (by rintro _ ⟨⟩; decide)) hexponent
      · rw [toDecimal, List.append_nil, hdigits, Decimal.padded, pow_zero, mul_one]
        congr 1
        simp only [List.length_nil] at hx ⊢
        omega
    | cons c' ds =>
      have hfraction : IsRun (c' :: ds) :=
        ⟨List.cons_ne_nil _ _, fun c'' hc'' ↦ hrun.2 c'' (List.mem_cons_of_mem _ hc'')⟩
      have htext : scientific (c :: c' :: ds) x ++ rest =
          [c] ++ '.' :: (c' :: ds ++ (exponentText x ++ rest)) := by
        simp [scientific, exponentText]
      refine ⟨⟨d.negative, [c], c' :: ds, x, false⟩, ?_, rfl, ?_⟩
      · rw [htext]
        exact unsigned?_append _ hc hzero (by rintro _ ⟨⟩; decide)
          (fraction?_point hfraction (by rintro _ ⟨⟩; decide)) hexponent
      · rw [toDecimal, List.singleton_append, hdigits, Decimal.padded, pow_zero, mul_one]
        congr 1
        dsimp only
        omega

/-- A decimal number is read back with its sign. -/
theorem scan_decimalText (d : Decimal) (hd : d.coefficient = 0 → d.exponent = 0) (h : Ends rest) :
    ∃ n, scan (decimalText d ++ rest) = some (n, rest) ∧ n.isInteger = false ∧
      n.toDecimal = d.padded (zerosBehind d) := by
  generalize hx : ((digits d.coefficient).length : Int) - 1 + d.exponent = x
  obtain ⟨text, htext⟩ : ∃ text, text = if isPositional x then
      positional (digits d.coefficient) d.exponent else scientific (digits d.coefficient) x :=
    ⟨_, rfl⟩
  have hread : ReadsAs text d (zerosBehind d) rest := by
    rw [htext, zerosBehind, hx]
    split
    · rename_i hpositional
      rcases lt_or_ge d.exponent 0 with he | he
      · rw [if_neg fun hand ↦ absurd hand.2 (not_le.mpr he)]
        exact readsAs_positional_of_neg he (fun h0 ↦ he.ne (hd h0)) h
      · rw [if_pos ⟨hpositional, he⟩]
        exact readsAs_positional_of_nonneg he hd h
    · rename_i hscientific
      rw [if_neg fun hand ↦ hscientific hand.1]
      exact readsAs_scientific hx h
  obtain ⟨n, hn, hvalue⟩ := hread
  have hsign : decimalText d ++ rest =
      if d.negative then '-' :: (text ++ rest) else text ++ rest := by
    rw [decimalText, hx, ← htext]
    cases d.negative <;> rfl
  exact ⟨n, hsign ▸ scan_signed hn, hvalue⟩

end Numeral

/-! ## What is written is read -/

/-- Only zero is written with no digit but zero. -/
theorem exponent_shortest {d : Double} (h : d.shortest.coefficient = 0) :
    d.shortest.exponent = 0 := by
  by_cases hd : d.mantissa = 0
  · rw [Double.shortest, if_pos hd]
  · exact absurd h (Double.nearest?_of_ofDecimal? d.ofDecimal?_shortest hd).1

/-- **Written numbers are read back**, as integers if they were integers and as doubles if they were
doubles. -/
theorem Number.scan_text (m : Number) {rest : List Char} (h : Numeral.Ends rest) :
    ∃ n, Numeral.scan (m.text ++ rest) = some (n, rest) ∧ n.toNumber? = some m := by
  cases m with
  | integer x hx =>
    refine ⟨_, Numeral.scan_signedDigits x h, ?_⟩
    have hvalue : Numeral.toInt? ⟨decide (x < 0), digits x.natAbs, [], 0, true⟩ = some x := by
      rw [Numeral.toInt?, if_pos rfl, natOf_digits]
      by_cases hneg : x < 0
      · rw [if_pos (decide_eq_true hneg), if_neg (by omega)]
        exact congrArg some (by simp only [Int.ofNat_eq_natCast]; omega)
      · rw [if_neg (by simp [hneg])]
        exact congrArg some (by simp only [Int.ofNat_eq_natCast]; omega)
    rw [Numeral.toNumber?, hvalue, Option.bind_some, Number.ofInt?, dif_pos hx]
  | double d =>
    obtain ⟨n, hn, hinteger, hvalue⟩ :=
      Numeral.scan_decimalText d.shortest exponent_shortest h
    refine ⟨n, hn, ?_⟩
    have hnone : n.toInt? = none := by rw [Numeral.toInt?, hinteger]; rfl
    rw [Numeral.toNumber?, hnone, Option.bind_none, hvalue, Double.ofDecimal?_padded,
      d.ofDecimal?_shortest, Option.map_some]

end Json
end RecordQuery
