import RecordQuery.Proofs.Rounding
import Mathlib.Tactic.FieldSimp

/-!
# Numbers are compared as they are written

A number stands for the value of its written form, and that is what `Json.Number.compare` compares
with an integer (`compare_eq`).  It does so directly when the written form is short enough.
Otherwise it compares doubles, and then neither the number nor the integer it compares is the one
that was asked about.  The answer is right all the same.

* `shortest_cases`: the digits of a double are at most `10 ^ 18`, or they are all its digits.
* `far_or_near_of_not_fitsWord`: what is too long is therefore far away from all integers of `64`
  bits, or so close to zero that only the sign matters; and so is the double that is compared.
* `compare_signed_of_far`, `compare_signed_of_near`: one such number compares like the other.
-/

set_option autoImplicit false

namespace RecordQuery

/-! ## Counting digits -/

namespace Decimal

theorem lt_pow_digitCount (n : Nat) : n < 10 ^ digitCount n :=
  (Nat.length_toDigits_le_iff (by decide) Nat.length_toDigits_pos).mp le_rfl

theorem pow_pred_digitCount_le {n : Nat} (h : n ≠ 0) : 10 ^ (digitCount n - 1) ≤ n := by
  rcases Nat.eq_zero_or_pos (digitCount n - 1) with hone | hpos
  · rw [hone, pow_zero]
    exact Nat.one_le_iff_ne_zero.mpr h
  · refine not_lt.mp fun hlt ↦ ?_
    have hle : digitCount n ≤ digitCount n - 1 :=
      (Nat.length_toDigits_le_iff (by decide) hpos).mpr hlt
    omega

theorem magnitude_nonneg (d : Decimal) : 0 ≤ d.magnitude :=
  mul_nonneg (Nat.cast_nonneg _) (zpow_pos (by norm_num) _).le

end Decimal

namespace Double

open Decimal

theorem ten_zpow_pos (e : Int) : (0 : Rat) < 10 ^ e := zpow_pos (by norm_num) e

/-- The numerator has so many digits, and the denominator at least so many. -/
theorem magnitude_lt_decimalBound (d : Double) : d.magnitude < (10 : Rat) ^ d.decimalBound := by
  obtain ⟨x, hx⟩ : ∃ x, x = d.magnitude := ⟨_, rfl⟩
  have hpos : 0 ≤ x := hx ▸ d.magnitude_nonneg
  have hnum : (x.num.natAbs : Rat) = x.num := by
    rw [Nat.cast_natAbs, abs_of_nonneg (Rat.num_nonneg.mpr hpos)]
  have hlt : (x.num.natAbs : Rat) < 10 ^ (digitCount x.num.natAbs : Int) := by
    rw [zpow_natCast]
    exact_mod_cast lt_pow_digitCount x.num.natAbs
  have hle : (10 : Rat) ^ ((digitCount x.den : Int) - 1) ≤ x.den := by
    have hcount : ((digitCount x.den : Int) - 1) = (digitCount x.den - 1 : Nat) := by
      have hcount' : 0 < digitCount x.den := Nat.length_toDigits_pos
      omega
    rw [hcount, zpow_natCast]
    exact_mod_cast pow_pred_digitCount_le x.den_ne_zero
  have hbound : d.decimalBound =
      (digitCount x.num.natAbs : Int) - ((digitCount x.den : Int) - 1) := by
    rw [decimalBound, ← hx]
    simp only [Int.ofNat_eq_natCast]
    omega
  calc d.magnitude = x.num.natAbs / x.den := by rw [← hx, hnum, Rat.num_div_den]
    _ < 10 ^ (digitCount x.num.natAbs : Int) / 10 ^ ((digitCount x.den : Int) - 1) :=
      div_lt_div₀ hlt hle (ten_zpow_pos _).le (ten_zpow_pos _)
    _ = (10 : Rat) ^ d.decimalBound := by
      rw [hbound]
      exact (zpow_sub₀ (by norm_num) _ _).symm

/-! ## The digits of a double -/

/-- On the grid `i` places below the bound, nothing next to the double is above the bound. -/
theorem coefficient_of_mem_neighbours {d : Double} {i : Nat} {n : Decimal}
    (h : n ∈ d.neighbours (d.decimalBound - i)) : n.coefficient ≤ 10 ^ i := by
  obtain ⟨x, hx⟩ : ∃ x, x = d.magnitude / (10 : Rat) ^ (d.decimalBound - i) := ⟨_, rfl⟩
  have hbound : ((10 ^ i : Int) : Rat) * 10 ^ (d.decimalBound - i) = 10 ^ d.decimalBound := by
    rw [Int.cast_pow, Int.cast_ofNat, ← zpow_natCast, ← zpow_add₀ (by norm_num)]
    congr 1
    omega
  have hlt : x < (10 ^ i : Int) := by
    rw [hx, div_lt_iff₀ (ten_zpow_pos _), hbound]
    exact d.magnitude_lt_decimalBound
  have hfloor : x.floor < (10 ^ i : Nat) := by exact_mod_cast Rat.floor_lt_iff.mpr hlt
  have hpos : 0 < 10 ^ i := Nat.pow_pos (by decide)
  have hbelow : x.floor.toNat < 10 ^ i := (Int.toNat_lt_of_ne_zero hpos.ne').mpr hfloor
  rw [neighbours, ← hx] at h
  obtain ⟨m, hm, rfl⟩ := List.mem_map.mp h
  show m ≤ 10 ^ i
  split at hm <;> simp only [List.mem_cons, List.not_mem_nil, or_false] at hm <;> omega

/-- The shortest decimal number is read back as the double and has at most nineteen digits, unless
nothing next to the double is read back on any of the grids; then it is the double with all its
digits. -/
theorem shortest_cases {d : Double} (h : d.mantissa ≠ 0) :
    (ofDecimal? d.shortest = some d ∧ d.shortest.coefficient ≤ 10 ^ 18) ∨
      (d.shortest = d.exactDecimal ∧
        ∀ i < 19, ∀ n ∈ d.neighbours (d.decimalBound - Int.ofNat i), ofDecimal? n ≠ some d) := by
  generalize hfound : ((List.range 19).map fun i ↦ d.decimalBound - Int.ofNat i).findSome?
    (fun exponent ↦ (d.neighbours exponent).find? fun n ↦ ofDecimal? n = some d) = found
  have hshortest : d.shortest = found.getD d.exactDecimal := by
    rw [shortest, if_neg h, ← hfound]
  rw [hshortest]
  cases found with
  | none =>
    refine .inr ⟨rfl, fun i hi n hn ↦ ?_⟩
    have hgrid := List.findSome?_eq_none_iff.mp hfound _
      (List.mem_map_of_mem (List.mem_range.mpr hi))
    simpa using List.find?_eq_none.mp hgrid n hn
  | some n =>
    left
    obtain ⟨exponent, hexponent, hn⟩ := List.exists_of_findSome?_eq_some hfound
    obtain ⟨i, hi, rfl⟩ := List.mem_map.mp hexponent
    have hread := List.find?_some hn
    have hsize := coefficient_of_mem_neighbours (List.mem_of_find?_eq_some hn)
    have hi' : i ≤ 18 := Nat.le_of_lt_succ (List.mem_range.mp hi)
    exact ⟨of_decide_eq_true hread, hsize.trans (Nat.pow_le_pow_right (by decide) hi')⟩

/-- What is read back as a double is rounded to it, unless that is zero. -/
theorem nearest?_of_ofDecimal? {n : Decimal} {d : Double} (h : ofDecimal? n = some d)
    (hd : d.mantissa ≠ 0) : n.coefficient ≠ 0 ∧ nearest? n.negative n.magnitude = some d := by
  rw [ofDecimal?] at h
  have hzero : some (zero n.negative) ≠ some d := by
    rintro ⟨⟩
    exact hd rfl
  split at h
  · exact absurd h hzero
  · rename_i hcoefficient
    refine ⟨hcoefficient, ?_⟩
    split at h
    · cases h
    · split at h
      · exact absurd h hzero
      · exact h

/-- All the digits of a double make up its size. -/
theorem magnitude_exactDecimal (d : Double) : d.exactDecimal.magnitude = d.magnitude := by
  rw [exactDecimal]
  split
  · rename_i h
    obtain ⟨k, hk⟩ := Int.eq_ofNat_of_zero_le h
    rw [Decimal.magnitude, magnitude, hk, zpow_zero, mul_one, zpow_natCast, Int.toNat_natCast,
      Nat.pow_eq]
    push_cast
    rfl
  · rename_i h
    obtain ⟨k, hk⟩ := Int.eq_ofNat_of_zero_le (neg_nonneg.mpr (not_le.mp h).le)
    have hexponent : d.exponent = -k := by omega
    have hten : (10 : Rat) ^ k = 2 ^ k * 5 ^ k := by rw [← mul_pow]; norm_num
    rw [Decimal.magnitude, magnitude, hk, hexponent, Int.toNat_natCast, zpow_neg, zpow_neg,
      zpow_natCast, zpow_natCast, hten, Nat.pow_eq]
    push_cast
    field_simp

theorem toRat_exactDecimal (d : Double) : d.exactDecimal.toRat = d.toRat := by
  have hnegative : d.exactDecimal.negative = d.negative := by
    rw [exactDecimal]
    split <;> rfl
  rw [Decimal.toRat, toRat, magnitude_exactDecimal, hnegative]

/-! ## What is too long to be compared exactly -/

/-- Digits without a power of ten are a word when they are below `2 ^ 96`. -/
theorem fitsWord_zero_exponent {negative : Bool} {coefficient : Nat} :
    (Decimal.mk negative coefficient 0).FitsWord ↔ coefficient < 2 ^ 96 := by
  rw [Decimal.FitsWord, if_pos le_rfl, Int.toNat_zero, Nat.pow_eq, pow_zero, mul_one]
  norm_num

/-- Few digits are too long for a word only by their exponent. -/
theorem far_or_near_of_not_fitsWord {n : Decimal} (h : ¬ n.FitsWord)
    (hn : n.coefficient ≤ 10 ^ 18) : (2 : Rat) ^ (96 : Int) ≤ n.magnitude ∨
      n.magnitude ≤ (2 : Rat) ^ (-36 : Int) := by
  rw [Decimal.FitsWord] at h
  split at h
  · rename_i hexponent
    obtain ⟨k, hk⟩ := Int.eq_ofNat_of_zero_le hexponent
    rw [hk, Int.toNat_natCast, not_lt] at h
    left
    rw [Decimal.magnitude, hk, zpow_natCast, ← Nat.cast_ofNat (n := 10), ← Nat.cast_pow,
      ← Nat.cast_mul]
    exact_mod_cast h
  · have hexponent : n.exponent ≤ -29 := by omega
    have hcoefficient : (n.coefficient : Rat) ≤ 10 ^ 18 := by exact_mod_cast hn
    have hpower : (10 : Rat) ^ n.exponent ≤ 10 ^ (-29 : Int) :=
      zpow_le_zpow_right₀ (by norm_num) hexponent
    right
    calc n.magnitude ≤ 10 ^ 18 * 10 ^ (-29 : Int) :=
          mul_le_mul hcoefficient hpower (ten_zpow_pos _).le (by norm_num)
      _ ≤ (2 : Rat) ^ (-36 : Int) := by norm_num

/-- A double with too many digits is below `2 ^ 53`, where integers are not rounded, or beyond all
integers. -/
theorem magnitude_of_not_fitsWord {d : Double} (h : ¬ d.exactDecimal.FitsWord) :
    d.magnitude < 2 ^ 53 ∨ 2 ^ 63 < d.magnitude := by
  rcases lt_or_ge d.exponent 0 with hneg | hpos
  · have hmantissa : (d.mantissa : Rat) < 2 ^ 53 := by exact_mod_cast d.canonical.1
    have hpower : (2 : Rat) ^ d.exponent ≤ 1 := zpow_le_one_of_nonpos₀ one_le_two hneg.le
    left
    calc d.magnitude ≤ d.mantissa * 1 := mul_le_mul_of_nonneg_left hpower (Nat.cast_nonneg _)
      _ < 2 ^ 53 := by rwa [mul_one]
  · have hexact : d.exactDecimal = ⟨d.negative, d.mantissa * 2 ^ d.exponent.toNat, 0⟩ := by
      rw [exactDecimal, if_pos hpos, Nat.pow_eq]
    rw [hexact, fitsWord_zero_exponent, not_lt] at h
    right
    rw [← magnitude_exactDecimal, hexact, Decimal.magnitude, zpow_zero, mul_one]
    have hlarge : (2 : Rat) ^ 96 ≤ (d.mantissa * 2 ^ d.exponent.toNat : Nat) := by exact_mod_cast h
    exact lt_of_lt_of_le (by norm_num) hlarge

theorem compare_signed_of_far (negative : Bool) {x y : Rat} {n : Int} (hn : n.natAbs ≤ 2 ^ 63)
    (hx : 2 ^ 63 < x) (hy : 2 ^ 63 < y) :
    compareOfLessAndEq (signed negative x) n = compareOfLessAndEq (signed negative y) n := by
  obtain ⟨hlow, hhigh⟩ := abs_le.mp (abs_intCast_le hn)
  cases negative with
  | true => exact compare_of_lt (by rw [signed_true]; linarith) (by rw [signed_true]; linarith)
  | false => exact compare_of_gt (hhigh.trans_lt hx) (hhigh.trans_lt hy)

/-- Between zero and one only the sign matters. -/
theorem compare_signed_of_near (negative : Bool) {x y : Rat} (n : Int) (hx : 0 < x) (hx' : x < 1)
    (hy : 0 < y) (hy' : y < 1) :
    compareOfLessAndEq (signed negative x) n = compareOfLessAndEq (signed negative y) n := by
  have hsize : ∀ z : Rat, 0 < z → z < 1 → |signed negative z| < 1 := by
    intro z hz hz'
    rw [abs_signed, abs_of_pos hz]
    exact hz'
  obtain ⟨hlowx, hhighx⟩ := abs_lt.mp (hsize x hx hx')
  obtain ⟨hlowy, hhighy⟩ := abs_lt.mp (hsize y hy hy')
  rcases lt_trichotomy n 0 with hneg | rfl | hpos
  · have hcast : (n : Rat) ≤ -1 := by exact_mod_cast Int.le_sub_one_of_lt hneg
    exact compare_of_gt (hcast.trans_lt hlowx) (hcast.trans_lt hlowy)
  · rw [Int.cast_zero]
    cases negative with
    | true => exact compare_of_lt (neg_lt_zero.mpr hx) (neg_lt_zero.mpr hy)
    | false => exact compare_of_gt hx hy
  · have hcast : (1 : Rat) ≤ n := by exact_mod_cast hpos
    exact compare_of_lt (hhighx.trans_le hcast) (hhighy.trans_le hcast)

/-- When the digits of a double are too long, comparing doubles gives the same answer. -/
theorem compare_of_not_fitsWord {d : Double} (h : ¬ d.shortest.FitsWord) {n : Int}
    (hn : n.natAbs ≤ 2 ^ 63) :
    compareOfLessAndEq d.toRat (ofInt n).toRat = compareOfLessAndEq d.shortest.toRat n := by
  have hmantissa : d.mantissa ≠ 0 := by
    intro hzero
    rw [shortest, if_pos hzero] at h
    exact h (fitsWord_zero_exponent.mpr (by decide))
  rcases shortest_cases hmantissa with ⟨hread, hdigits⟩ | ⟨hexact, -⟩
  · obtain ⟨hcoefficient, hnearest⟩ := nearest?_of_ofDecimal? hread hmantissa
    have hsign : d.negative = d.shortest.negative := (mantissa_of_nearest? hnearest).1
    rw [Decimal.toRat, ← hsign]
    rcases far_or_near_of_not_fitsWord h hdigits with hfar | hnear
    · have hfar' := two_zpow_le_magnitude hnearest (by norm_num) hfar
      have hbeyond : (2 : Rat) ^ 63 < (2 : Rat) ^ (96 : Int) := by norm_num
      have hsize : 2 ^ 63 < |d.toRat| := by
        rw [abs_toRat]
        exact hbeyond.trans_le hfar'
      rw [compare_toRat_ofInt hn (.inr hsize)]
      exact compare_signed_of_far _ hn (hbeyond.trans_le hfar') (hbeyond.trans_le hfar)
    · have hnear' := magnitude_le_two_zpow hnearest (by norm_num) hnear
      have hbelow : (2 : Rat) ^ (-36 : Int) < 1 := by norm_num
      have hsize : |d.toRat| < 2 ^ 53 := by
        rw [abs_toRat]
        exact (hnear'.trans_lt hbelow).trans (by norm_num)
      have hpos : 0 < d.magnitude := mul_pos (by positivity) (two_zpow_pos _)
      have hpos' : 0 < d.shortest.magnitude := mul_pos (by positivity) (ten_zpow_pos _)
      rw [compare_toRat_ofInt hn (.inl hsize)]
      exact compare_signed_of_near _ n hpos (hnear'.trans_lt hbelow) hpos' (hnear.trans_lt hbelow)
  · rw [hexact] at h ⊢
    rw [toRat_exactDecimal]
    refine compare_toRat_ofInt hn ?_
    rw [abs_toRat]
    exact magnitude_of_not_fitsWord h

end Double

/-! ## Comparing numbers -/

theorem natAbs_toInt_le (i : Integer) : i.toInt.natAbs ≤ 2 ^ 63 := by
  have h := Integer.inRange_toInt i
  rw [Integer.InRange] at h
  omega

/-- **Numbers are compared exactly**: whichever way it is found out, the answer is the order of the
number as it is written and the integer. -/
theorem Json.Number.compare_eq (n : Json.Number) (i : Integer) :
    n.compare i = compareOfLessAndEq n.written.toRat (i.toInt : Rat) := by
  rw [compare]
  split
  · rfl
  · rename_i h
    cases n with
    | integer value hrange =>
      have hfits : (Decimal.ofInt value).FitsWord := Double.fitsWord_zero_exponent.mpr (by omega)
      exact absurd hfits h
    | double value => exact Double.compare_of_not_fitsWord h (natAbs_toInt_le i)

end RecordQuery
