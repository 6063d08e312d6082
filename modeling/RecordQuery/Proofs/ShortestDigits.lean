import RecordQuery.Proofs.ExactOrder

/-!
# Written digits are read back

A double is written with the digits of `Double.shortest`, and reading those gives the double again.
The search for few digits only takes digits that do so.  When it finds none, all the digits are
written, and these are equal in value to the double.

* `nearest?_magnitude`: a double is nearest to itself.
* `ofDecimal?_of_magnitude_eq`: whatever is equal in value to a double is read as the double.
* `ofDecimal?_padded`: zeros at the end of the digits change nothing.
* `ofDecimal?_shortest`: the digits that are written are read back.
-/

set_option autoImplicit false

namespace RecordQuery

namespace Decimal

/-! ## The leading digit -/

/-- The power of ten above the leading digit of a number. -/
def leading (n : Decimal) : Int := n.exponent + digitCount n.coefficient

theorem magnitude_lt_leading (n : Decimal) : n.magnitude < (10 : Rat) ^ n.leading := by
  have hlt : (n.coefficient : Rat) < 10 ^ (digitCount n.coefficient : Int) := by
    rw [zpow_natCast]
    exact_mod_cast lt_pow_digitCount n.coefficient
  rw [leading, zpow_add₀ (by norm_num), mul_comm]
  exact mul_lt_mul_of_pos_right hlt (Double.ten_zpow_pos _)

theorem pred_leading_le_magnitude {n : Decimal} (h : n.coefficient ≠ 0) :
    (10 : Rat) ^ (n.leading - 1) ≤ n.magnitude := by
  have hcount : 0 < digitCount n.coefficient := Nat.length_toDigits_pos
  have hle : (10 : Rat) ^ ((digitCount n.coefficient - 1 : Nat) : Int) ≤ n.coefficient := by
    rw [zpow_natCast]
    exact_mod_cast pow_pred_digitCount_le h
  have hsplit : n.leading - 1 = ((digitCount n.coefficient - 1 : Nat) : Int) + n.exponent := by
    rw [leading]
    omega
  rw [hsplit, zpow_add₀ (by norm_num)]
  exact mul_le_mul_of_nonneg_right hle (Double.ten_zpow_pos _).le

/-! ## Zeros at the end -/

/-- The same number written with `k` more digits. -/
def padded (n : Decimal) (k : Nat) : Decimal :=
  ⟨n.negative, n.coefficient * 10 ^ k, n.exponent - k⟩

theorem digitCount_mul_pow {c : Nat} (h : c ≠ 0) (k : Nat) :
    digitCount (c * 10 ^ k) = digitCount c + k := by
  induction k with
  | zero => rw [pow_zero, mul_one, add_zero]
  | succ k ih =>
    have hpos : 0 < c * 10 ^ k := Nat.mul_pos (Nat.pos_of_ne_zero h) (by positivity)
    have hdigits := Nat.toDigits_append_toDigits (b := 10) (by decide) hpos (d := 0) (by decide)
    have hnext : c * 10 ^ (k + 1) = 10 * (c * 10 ^ k) + 0 := by ring
    rw [hnext, digitCount, ← hdigits, List.length_append, Nat.toDigits_zero, ← digitCount, ih]
    rfl

theorem magnitude_padded (n : Decimal) (k : Nat) : (n.padded k).magnitude = n.magnitude := by
  have hexponent : n.exponent = k + (n.exponent - k) := by omega
  rw [magnitude, magnitude, padded]
  conv_rhs => rw [hexponent, zpow_add₀ (by norm_num), zpow_natCast]
  push_cast
  ring

theorem leading_padded {n : Decimal} (h : n.coefficient ≠ 0) (k : Nat) :
    (n.padded k).leading = n.leading := by
  rw [leading, leading, padded, digitCount_mul_pow h]
  push_cast
  ring

end Decimal

namespace Double

/-! ## A double is nearest to itself -/

/-- The exponents start at most one below the one that leaves `53` binary digits. -/
theorem leastExponent_cases {x : Rat} {l : Int} (hlow : (2 : Rat) ^ l ≤ x)
    (hhigh : x < (2 : Rat) ^ (l + 1)) :
    leastExponent x = max (-1074) (l - 53) ∨ leastExponent x = max (-1074) (l - 52) := by
  have hx : 0 < x := (two_zpow_pos l).trans_le hlow
  have hnum : (x.num.natAbs : Rat) = x.num := by
    rw [Nat.cast_natAbs, abs_of_nonneg (Rat.num_nonneg.mpr hx.le)]
  have hnum0 : x.num.natAbs ≠ 0 := Int.natAbs_ne_zero.mpr (Rat.num_pos.mpr hx).ne'
  generalize ha : x.num.natAbs.log2 = a
  generalize hb : x.den.log2 = b
  obtain ⟨hnumLow, hnumHigh⟩ := (Nat.log2_eq_iff hnum0).mp ha
  obtain ⟨hdenLow, hdenHigh⟩ := (Nat.log2_eq_iff x.den_ne_zero).mp hb
  have hdiv : x = x.num.natAbs / x.den := by rw [hnum, Rat.num_div_den]
  have hbelow : (2 : Rat) ^ ((a : Int) - (b + 1 : Nat)) < x := by
    rw [zpow_sub₀ two_ne_zero, zpow_natCast, zpow_natCast, hdiv]
    exact div_lt_div₀' (by exact_mod_cast hnumLow) (by exact_mod_cast hdenHigh)
      (by positivity) (by exact_mod_cast x.den_pos)
  have habove : x < (2 : Rat) ^ (((a + 1 : Nat) : Int) - b) := by
    rw [zpow_sub₀ two_ne_zero, zpow_natCast, zpow_natCast, hdiv]
    exact div_lt_div₀ (by exact_mod_cast hnumHigh) (by exact_mod_cast hdenLow) (by positivity)
      (by positivity)
  have hupper := (zpow_lt_zpow_iff_right₀ one_lt_two).mp (hbelow.trans hhigh)
  have hlower := (zpow_lt_zpow_iff_right₀ one_lt_two).mp (hlow.trans_lt habove)
  rw [leastExponent, if_neg hx.ne', ha, hb]
  simp only [Int.ofNat_eq_natCast]
  omega

theorem roundedAt_magnitude (d : Double) :
    roundedAt d.negative d.magnitude d.exponent = some d := by
  have hdiv : d.magnitude / 2 ^ d.exponent = ((d.mantissa : Int) : Rat) := by
    rw [magnitude, mul_div_assoc, div_self (two_zpow_pos _).ne', mul_one]
    rfl
  rw [roundedAt, hdiv, roundEven_intCast, Int.toNat_natCast]
  exact ofParts?_eq_some.mpr ⟨rfl, rfl, rfl⟩

variable {d : Double}

/-- Its own exponent is the first one that is tried for a double, or the second. -/
theorem nearest?_magnitude (h : d.mantissa ≠ 0) :
    nearest? d.negative d.magnitude = some d := by
  generalize hl : d.mantissa.log2 = l
  obtain ⟨hlow, hhigh⟩ := (Nat.log2_eq_iff h).mp hl
  have hpos := two_zpow_pos d.exponent
  have hlow' : (2 : Rat) ^ ((l : Int) + d.exponent) ≤ d.magnitude := by
    rw [zpow_add₀ two_ne_zero, zpow_natCast]
    exact mul_le_mul_of_nonneg_right (by exact_mod_cast hlow) hpos.le
  have hhigh' : d.magnitude < (2 : Rat) ^ ((l : Int) + d.exponent + 1) := by
    rw [add_right_comm, zpow_add₀ two_ne_zero, ← Nat.cast_succ, zpow_natCast]
    exact mul_lt_mul_of_pos_right (by exact_mod_cast hhigh) hpos
  have hl53 : l < 53 := hl ▸ (Nat.log2_lt h).mpr d.canonical.1
  have hfull : d.exponent = -1074 ∨ l = 52 := by
    rcases d.canonical.2.2.2 with hle | hleast
    · have hle' : 52 ≤ l := hl ▸ (Nat.le_log2 h).mpr hle
      exact .inr (by omega)
    · exact .inl hleast
  have hmin := d.canonical.2.1
  have hstart : leastExponent d.magnitude = d.exponent ∨
      (leastExponent d.magnitude = d.exponent - 1 ∧ l = 52) := by
    rcases leastExponent_cases hlow' hhigh' with hleast | hleast <;> rw [hleast] <;> omega
  rw [nearest?_eq]
  rcases hstart with hleast | ⟨hleast, rfl⟩
  · rw [hleast, roundedAt_magnitude, Option.some_or, Option.some_or]
  · have hlower : d.magnitude = ((2 * d.mantissa : Int) : Rat) * 2 ^ (d.exponent - 1) := by
      rw [magnitude, zpow_sub_one₀ two_ne_zero]
      push_cast
      ring
    have hround : 2 ^ 53 ≤ roundEven ((2 * d.mantissa : Int) : Rat) := by
      rw [roundEven_intCast]
      omega
    rw [hleast, roundedAt_of_le _ hlower hround, sub_add_cancel, roundedAt_magnitude,
      Option.none_or, Option.some_or]

/-! ## Digits that are read back -/

theorem two_pow_lt_ten_pow : (2 : Rat) ^ 1023 < 10 ^ 308 :=
  calc (2 : Rat) ^ 1023 = (2 ^ 93) ^ 11 := pow_mul 2 93 11
    _ < (10 ^ 28) ^ 11 := pow_lt_pow_left₀ (by norm_num) (by positivity) (by decide)
    _ = 10 ^ 308 := (pow_mul 10 28 11).symm

theorem magnitude_lt_ten_pow (d : Double) : d.magnitude < (10 : Rat) ^ (309 : Int) := by
  have hmantissa : (d.mantissa : Rat) < 2 ^ 53 := by exact_mod_cast d.canonical.1
  have hpower : (2 : Rat) ^ d.exponent ≤ 2 ^ (971 : Int) :=
    zpow_le_zpow_right₀ one_le_two d.canonical.2.2.1
  calc d.magnitude ≤ d.mantissa * 2 ^ (971 : Int) :=
        mul_le_mul_of_nonneg_left hpower (Nat.cast_nonneg _)
    _ < 2 ^ 53 * 2 ^ (971 : Int) := mul_lt_mul_of_pos_right hmantissa (two_zpow_pos _)
    _ = 2 * 2 ^ 1023 := by rw [zpow_ofNat, ← pow_add, ← pow_succ']
    _ < 10 * 10 ^ 308 := mul_lt_mul'' (by norm_num) two_pow_lt_ten_pow (by norm_num) (by positivity)
    _ = (10 : Rat) ^ (309 : Int) := by rw [zpow_ofNat, ← pow_succ']

theorem ten_pow_lt_magnitude (h : d.mantissa ≠ 0) : (10 : Rat) ^ (-324 : Int) < d.magnitude := by
  have hmantissa : (1 : Rat) ≤ d.mantissa := by
    exact_mod_cast Nat.one_le_iff_ne_zero.mpr h
  have hpower : (2 : Rat) ^ (-1074 : Int) ≤ 2 ^ d.exponent :=
    zpow_le_zpow_right₀ one_le_two d.canonical.2.1
  have hsmall : (2 : Rat) ^ 1074 < 10 ^ 324 :=
    calc (2 : Rat) ^ 1074 = 2 ^ 1023 * 2 ^ 51 := pow_add 2 1023 51
      _ < 10 ^ 308 * 10 ^ 16 :=
        mul_lt_mul'' two_pow_lt_ten_pow (by norm_num) (by positivity) (by positivity)
      _ = 10 ^ 324 := (pow_add 10 308 16).symm
  calc (10 : Rat) ^ (-324 : Int) = (10 ^ 324)⁻¹ := by rw [zpow_neg, zpow_ofNat]
    _ < (2 ^ 1074)⁻¹ := inv_strictAnti₀ (by positivity) hsmall
    _ = 2 ^ (-1074 : Int) := by rw [zpow_neg, zpow_ofNat]
    _ ≤ 2 ^ d.exponent := hpower
    _ = 1 * 2 ^ d.exponent := (one_mul _).symm
    _ ≤ d.magnitude := mul_le_mul_of_nonneg_right hmantissa (two_zpow_pos _).le

/-- What is equal in value to a double is read as the double.  It is neither so large nor so small
that it would not be looked at. -/
theorem ofDecimal?_of_magnitude_eq {n : Decimal} (hd : d.mantissa ≠ 0)
    (hnegative : n.negative = d.negative) (h : n.magnitude = d.magnitude) :
    ofDecimal? n = some d := by
  have hcoefficient : n.coefficient ≠ 0 := by
    intro hzero
    have hpos := (ten_zpow_pos _).trans (ten_pow_lt_magnitude hd)
    rw [← h, Decimal.magnitude, hzero, Nat.cast_zero, zero_mul] at hpos
    exact lt_irrefl _ hpos
  have hone : (1 : Rat) < 10 := by norm_num
  have hupper := (zpow_lt_zpow_iff_right₀ hone).mp
    ((Decimal.pred_leading_le_magnitude hcoefficient).trans_lt (h ▸ d.magnitude_lt_ten_pow))
  have hlower := (zpow_lt_zpow_iff_right₀ hone).mp
    ((h ▸ ten_pow_lt_magnitude hd).trans n.magnitude_lt_leading)
  rw [Decimal.leading] at hupper hlower
  rw [ofDecimal?, if_neg hcoefficient, if_neg (by omega), if_neg (by omega), h, hnegative]
  exact nearest?_magnitude hd

/-- Zeros at the end of the digits make no difference. -/
theorem ofDecimal?_padded (n : Decimal) (k : Nat) : ofDecimal? (n.padded k) = ofDecimal? n := by
  by_cases h : n.coefficient = 0
  · have hpadded : (n.padded k).coefficient = 0 := by rw [Decimal.padded, h, zero_mul]
    rw [ofDecimal?, ofDecimal?, if_pos h, if_pos hpadded]
    rfl
  · have hpadded : (n.padded k).coefficient ≠ 0 :=
      Nat.mul_ne_zero h (Nat.pos_iff_ne_zero.mp (by positivity))
    have hleading := Decimal.leading_padded h k
    rw [Decimal.leading, Decimal.leading] at hleading
    rw [ofDecimal?, ofDecimal?, if_neg h, if_neg hpadded, Decimal.magnitude_padded, hleading]
    rfl

/-- The digits a double is written with are read back as the double. -/
theorem ofDecimal?_shortest (d : Double) : ofDecimal? d.shortest = some d := by
  by_cases h : d.mantissa = 0
  · rw [shortest, if_pos h, ofDecimal?, if_pos rfl]
    obtain ⟨negative, mantissa, exponent, hcanonical⟩ := d
    cases h
    have hexponent : exponent = -1074 :=
      hcanonical.2.2.2.resolve_left (by decide)
    subst hexponent
    rfl
  · rcases shortest_cases h with ⟨hread, -⟩ | ⟨hexact, -⟩
    · exact hread
    · have hnegative : d.exactDecimal.negative = d.negative := by
        rw [exactDecimal]
        split <;> rfl
      rw [hexact]
      exact ofDecimal?_of_magnitude_eq h hnegative d.magnitude_exactDecimal

end Double
end RecordQuery
