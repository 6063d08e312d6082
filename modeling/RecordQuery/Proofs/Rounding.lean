import RecordQuery.NumberOrder
import Mathlib.Algebra.Order.Field.Power
import Mathlib.Algebra.Order.Field.Rat
import Mathlib.Tactic.Linarith
import Mathlib.Tactic.NormNum
import Mathlib.Tactic.Positivity
import Mathlib.Tactic.Ring
import Mathlib.Tactic.Zify

/-!
# Rounding to doubles

`Double.nearest?` tries a few exponents and rounds the mantissa for each.  What is needed of it are
bounds: a power of two is a double itself, so nothing is rounded from one side of it to the other.
The bounds hold of whatever double is the answer.  That there is one is worked out for natural
numbers only.

* `two_zpow_le_magnitude`, `magnitude_le_two_zpow`: rounding does not cross a power of two.
* `exists_nearest?_natCast`: natural numbers of `64` bits are rounded to a double, and small ones
  are kept.
* `compare_toRat_ofInt`: when an integer may be rounded before it is compared.
-/

set_option autoImplicit false

namespace RecordQuery
namespace Double

/-! ## Signs -/

@[simp] theorem signed_true (x : Rat) : signed true x = -x := rfl

@[simp] theorem signed_false (x : Rat) : signed false x = x := rfl

theorem abs_signed (negative : Bool) (x : Rat) : |signed negative x| = |x| := by
  cases negative with
  | true => exact abs_neg x
  | false => rfl

/-! ## Rounding to integers -/

theorem roundEven_cases (x : Rat) :
    (roundEven x = x.floor ∧ x - x.floor ≤ 1 / 2) ∨
      (roundEven x = x.floor + 1 ∧ 1 / 2 ≤ x - x.floor) := by
  rw [roundEven]
  split
  · rename_i h
    refine .inl ⟨rfl, ?_⟩
    rcases h with h | h
    · exact h.le
    · exact h.1.le
  · rename_i h
    exact .inr ⟨rfl, not_lt.mp fun hlt ↦ h (.inl hlt)⟩

theorem sub_half_le_roundEven (x : Rat) : x - 1 / 2 ≤ roundEven x := by
  rcases roundEven_cases x with ⟨h, hpart⟩ | ⟨h, -⟩
  · rw [h]
    linarith
  · have hfloor := Rat.lt_floor_add_one x
    rw [h]
    linarith

theorem roundEven_le_add_half (x : Rat) : roundEven x ≤ x + 1 / 2 := by
  rcases roundEven_cases x with ⟨h, -⟩ | ⟨h, hpart⟩
  · have hfloor := Rat.floor_le x
    rw [h]
    linarith
  · rw [h, Int.cast_add, Int.cast_one]
    linarith

/-- Rounding does not go below an integer. -/
theorem le_roundEven {n : Int} {x : Rat} (h : (n : Rat) - 1 / 2 < x) : n ≤ roundEven x := by
  have hround := sub_half_le_roundEven x
  have hlt : (n : Rat) - 1 < roundEven x := by linarith
  have hlt' : n - 1 < roundEven x := by exact_mod_cast hlt
  omega

/-- Rounding does not go above an integer. -/
theorem roundEven_le {n : Int} {x : Rat} (h : x < (n : Rat) + 1 / 2) : roundEven x ≤ n := by
  have hround := roundEven_le_add_half x
  have hlt : (roundEven x : Rat) < n + 1 := by linarith
  have hlt' : roundEven x < n + 1 := by exact_mod_cast hlt
  omega

theorem roundEven_intCast (n : Int) : roundEven n = n :=
  le_antisymm (roundEven_le (by linarith)) (le_roundEven (by linarith))

/-! ## Powers of two -/

/-- The power of two that `k` more binary places make of `2 ^ e`. -/
theorem two_zpow_add (e : Int) (k : Nat) : (2 : Rat) ^ (e + k) = ((2 ^ k : Int) : Rat) * 2 ^ e := by
  rw [zpow_add₀ two_ne_zero, zpow_natCast, Int.cast_pow, Int.cast_ofNat, mul_comm]

theorem two_zpow_pos (e : Int) : (0 : Rat) < 2 ^ e := zpow_pos two_pos e

theorem magnitude_nonneg (d : Double) : 0 ≤ d.magnitude :=
  mul_nonneg (Nat.cast_nonneg _) (two_zpow_pos _).le

theorem abs_toRat (d : Double) : |d.toRat| = d.magnitude := by
  rw [toRat, abs_signed, abs_of_nonneg d.magnitude_nonneg]

theorem ofParts?_eq_some {negative : Bool} {mantissa : Nat} {exponent : Int} {d : Double} :
    ofParts? negative mantissa exponent = some d ↔
      d.negative = negative ∧ d.mantissa = mantissa ∧ d.exponent = exponent := by
  rw [ofParts?]
  constructor
  · intro h
    split at h
    · cases h
      exact ⟨rfl, rfl, rfl⟩
    · cases h
  · rintro ⟨rfl, rfl, rfl⟩
    rw [dif_pos d.canonical]

/-- The mantissa of the nearest double is rounded for the exponent it has. -/
theorem mantissa_of_nearest? {negative : Bool} {x : Rat} {d : Double}
    (h : nearest? negative x = some d) :
    d.negative = negative ∧ d.mantissa = (roundEven (x / 2 ^ d.exponent)).toNat := by
  obtain ⟨i, -, hi⟩ := List.exists_of_findSome?_eq_some h
  obtain ⟨hnegative, hmantissa, hexponent⟩ := ofParts?_eq_some.mp hi
  exact ⟨hnegative, hexponent ▸ hmantissa⟩

theorem two_pow_le_mantissa {d : Double} (h : -1074 < d.exponent) : 2 ^ 52 ≤ d.mantissa :=
  d.canonical.2.2.2.resolve_right (ne_of_gt h)

variable {negative : Bool} {x : Rat} {d : Double} {k : Int}

/-- Nothing is rounded from above a power of two to below it. -/
theorem two_zpow_le_magnitude (h : nearest? negative x = some d) (hk : -1074 ≤ k)
    (hx : (2 : Rat) ^ k ≤ x) : (2 : Rat) ^ k ≤ d.magnitude := by
  obtain ⟨-, hmantissa⟩ := mantissa_of_nearest? h
  have hpos := two_zpow_pos d.exponent
  rcases le_or_gt d.exponent k with hle | hgt
  · obtain ⟨i, rfl⟩ := Int.le.dest hle
    rw [two_zpow_add] at hx ⊢
    have hround : (2 ^ i : Int) ≤ roundEven (x / 2 ^ d.exponent) := by
      have hdiv : ((2 ^ i : Int) : Rat) ≤ x / 2 ^ d.exponent := (le_div_iff₀ hpos).mpr hx
      exact le_roundEven (by linarith)
    have hnat : (2 ^ i : Int) ≤ d.mantissa := by
      rw [hmantissa]
      exact hround.trans (Int.self_le_toNat _)
    exact mul_le_mul_of_nonneg_right (by exact_mod_cast hnat) hpos.le
  · have hmantissa' : (1 : Rat) ≤ d.mantissa := by
      have hle := two_pow_le_mantissa (hk.trans_lt hgt)
      exact_mod_cast (Nat.one_le_two_pow.trans hle)
    calc (2 : Rat) ^ k ≤ 2 ^ d.exponent := zpow_le_zpow_right₀ one_le_two hgt.le
      _ = 1 * 2 ^ d.exponent := (one_mul _).symm
      _ ≤ d.magnitude := mul_le_mul_of_nonneg_right hmantissa' hpos.le

/-- Nothing is rounded from below a power of two to above it. -/
theorem magnitude_le_two_zpow (h : nearest? negative x = some d) (hk : -1074 ≤ k)
    (hx : x ≤ (2 : Rat) ^ k) : d.magnitude ≤ (2 : Rat) ^ k := by
  obtain ⟨-, hmantissa⟩ := mantissa_of_nearest? h
  have hpos := two_zpow_pos d.exponent
  rcases le_or_gt d.exponent k with hle | hgt
  · obtain ⟨i, rfl⟩ := Int.le.dest hle
    rw [two_zpow_add] at hx ⊢
    have hround : roundEven (x / 2 ^ d.exponent) ≤ (2 ^ i : Int) := by
      have hdiv : x / 2 ^ d.exponent ≤ ((2 ^ i : Int) : Rat) := (div_le_iff₀ hpos).mpr hx
      exact roundEven_le (by linarith)
    have hnat : d.mantissa ≤ 2 ^ i := by
      rw [hmantissa, Int.toNat_le]
      exact_mod_cast hround
    exact mul_le_mul_of_nonneg_right (by exact_mod_cast hnat) hpos.le
  · -- the mantissa would be at most one, which no exponent above the least one allows
    have hround : roundEven (x / 2 ^ d.exponent) ≤ 1 := by
      have hdiv : x / 2 ^ d.exponent ≤ 1 := by
        rw [div_le_one₀ hpos]
        exact hx.trans (zpow_le_zpow_right₀ one_le_two hgt.le)
      exact roundEven_le (by push_cast; linarith)
    have hmantissa' := two_pow_le_mantissa (hk.trans_lt hgt)
    omega

/-! ## Numbers of 53 binary digits -/

/-- The double that `x` is rounded to with this exponent, if the mantissa is canonical. -/
def roundedAt (negative : Bool) (x : Rat) (exponent : Int) : Option Double :=
  ofParts? negative (roundEven (x / (2 : Rat) ^ exponent)).toNat exponent

theorem nearest?_eq (negative : Bool) (x : Rat) :
    nearest? negative x = ((roundedAt negative x (leastExponent x)).or
      (roundedAt negative x (leastExponent x + 1))).or
        (roundedAt negative x (leastExponent x + 2)) := by
  have hfirst : leastExponent x + 0 = leastExponent x := add_zero _
  show [0, 1, 2].findSome? (fun i ↦ roundedAt negative x (leastExponent x + i)) = _
  simp only [List.findSome?_cons, List.findSome?_nil, hfirst]
  cases roundedAt negative x (leastExponent x) <;>
    cases roundedAt negative x (leastExponent x + 1) <;>
      cases roundedAt negative x (leastExponent x + 2) <;> rfl

variable {y : Rat} {e : Int}

/-- Too low an exponent leaves more than `53` binary digits. -/
theorem roundedAt_of_le (negative : Bool) (hx : x = y * 2 ^ e) (h : 2 ^ 53 ≤ roundEven y) :
    roundedAt negative x e = none := by
  have hdiv : x / 2 ^ e = y := by
    rw [hx, mul_div_assoc, div_self (two_zpow_pos e).ne', mul_one]
  rw [roundedAt, hdiv]
  exact dif_neg fun hcanonical ↦ absurd hcanonical.1 (by omega)

/-- The right exponent leaves `53` binary digits. -/
theorem roundedAt_of_full (negative : Bool) (hx : x = y * 2 ^ e) (hlow : 2 ^ 52 ≤ roundEven y)
    (hhigh : roundEven y < 2 ^ 53) (hmin : -1074 ≤ e) (hmax : e ≤ 971) :
    ∃ d, roundedAt negative x e = some d ∧ d.magnitude = roundEven y * 2 ^ e := by
  have hdiv : x / 2 ^ e = y := by
    rw [hx, mul_div_assoc, div_self (two_zpow_pos e).ne', mul_one]
  have hcanonical : Canonical (roundEven y).toNat e := ⟨by omega, hmin, hmax, .inl (by omega)⟩
  refine ⟨⟨negative, _, e, hcanonical⟩, ?_, ?_⟩
  · rw [roundedAt, hdiv]
    exact dif_pos hcanonical
  · have hcast : (((roundEven y).toNat : Int) : Rat) = roundEven y := by
      rw [Int.toNat_of_nonneg (by omega)]
    rw [magnitude, ← Int.cast_natCast, hcast]

/-- A number with `53` binary digits before the point of `y` is rounded there.  The next lower
exponent would leave one digit more, and the next higher one is needed only when rounding makes one
more. -/
theorem exists_nearest?_of_digits (negative : Bool) (hx : x = y * 2 ^ e)
    (hleast : leastExponent x = e - 1) (hlow : 2 ^ 52 ≤ y) (hhigh : y < 2 ^ 53)
    (hmin : -1074 ≤ e) (hmax : e < 971) :
    ∃ d, nearest? negative x = some d ∧
      (roundEven y < 2 ^ 53 → d.magnitude = roundEven y * 2 ^ e) := by
  have hxLower : x = 2 * y * 2 ^ (e - 1) := by
    rw [hx, zpow_sub_one₀ two_ne_zero]
    ring
  have hroundLower : 2 ^ 53 ≤ roundEven (2 * y) := le_roundEven (by push_cast; linarith)
  have hroundLow : 2 ^ 52 ≤ roundEven y := le_roundEven (by push_cast; linarith)
  have hsame : e - 1 + 1 = e := by omega
  have hnext : e - 1 + 2 = e + 1 := by omega
  rw [nearest?_eq, hleast, hsame, hnext, roundedAt_of_le negative hxLower hroundLower,
    Option.none_or]
  by_cases hround : roundEven y < 2 ^ 53
  · obtain ⟨d, hd, hmagnitude⟩ := roundedAt_of_full negative hx hroundLow hround hmin hmax.le
    exact ⟨d, by rw [hd, Option.some_or], fun _ ↦ hmagnitude⟩
  · have hxHigher : x = y / 2 * 2 ^ (e + 1) := by
      rw [hx, zpow_add_one₀ two_ne_zero]
      ring
    have hy := roundEven_le_add_half y
    have hfull : (2 ^ 53 : Rat) ≤ roundEven y := by exact_mod_cast not_lt.mp hround
    have hhalf : roundEven (y / 2) = 2 ^ 52 :=
      le_antisymm (roundEven_le (by push_cast; linarith)) (le_roundEven (by push_cast; linarith))
    obtain ⟨d, hd, -⟩ := roundedAt_of_full negative hxHigher hhalf.ge (by omega) (by omega) hmax
    refine ⟨d, ?_, fun h ↦ absurd h hround⟩
    rw [roundedAt_of_le negative hx (not_lt.mp hround), Option.none_or, hd]

/-! ## Integers -/

theorem leastExponent_natCast {n : Nat} (h : n ≠ 0) :
    leastExponent n = ((n.log2 : Int) - 52) - 1 := by
  have hn : (n : Rat) ≠ 0 := Nat.cast_ne_zero.mpr h
  have hone : Nat.log2 1 = 0 := Nat.log2_two_pow (n := 0)
  rw [leastExponent, if_neg hn, Rat.num_natCast, Rat.den_natCast, Int.natAbs_natCast, hone]
  simp only [Int.ofNat_eq_natCast]
  omega

theorem exists_nearest?_zero (negative : Bool) :
    ∃ d, nearest? negative 0 = some d ∧ d.magnitude = 0 := by
  have hcanonical : Canonical 0 (-1074) := by decide
  have hround : roundEven 0 = 0 := roundEven_intCast 0
  refine ⟨⟨negative, 0, -1074, hcanonical⟩, ?_, zero_mul _⟩
  rw [nearest?_eq, leastExponent, if_pos rfl, roundedAt, zero_div, hround]
  rfl

/-- Natural numbers of `64` bits are rounded to a double, and those below `2 ^ 53` are kept. -/
theorem exists_nearest?_natCast (negative : Bool) {n : Nat} (h : n < 2 ^ 64) :
    ∃ d, nearest? negative n = some d ∧ (n < 2 ^ 53 → d.magnitude = n) := by
  by_cases hn : n = 0
  · subst hn
    obtain ⟨d, hd, hzero⟩ := exists_nearest?_zero negative
    exact ⟨d, by exact_mod_cast hd, fun _ ↦ by exact_mod_cast hzero⟩
  generalize hl : n.log2 = l
  have hleast := leastExponent_natCast hn
  obtain ⟨hlow, hhigh⟩ := (Nat.log2_eq_iff hn).mp hl
  have hl64 : l < 64 := hl ▸ (Nat.log2_lt hn).mpr h
  rw [hl] at hleast
  generalize he : (l : Int) - 52 = e at hleast
  have hpos := two_zpow_pos e
  have hpow : (2 : Rat) ^ l = 2 ^ 52 * 2 ^ e := by
    rw [← zpow_natCast, ← zpow_natCast, ← zpow_add₀ two_ne_zero]
    congr 1
    push_cast
    omega
  have hx : (n : Rat) = n / 2 ^ e * 2 ^ e := (div_mul_cancel₀ _ hpos.ne').symm
  have hlow' : (2 : Rat) ^ 52 ≤ n / 2 ^ e := by
    rw [le_div_iff₀ hpos, ← hpow]
    exact_mod_cast hlow
  have hhigh' : n / 2 ^ e < (2 : Rat) ^ 53 := by
    rw [div_lt_iff₀ hpos]
    have hlt : (n : Rat) < 2 ^ (l + 1) := by exact_mod_cast hhigh
    rw [pow_succ, hpow] at hlt
    linarith
  obtain ⟨d, hd, hmagnitude⟩ :=
    exists_nearest?_of_digits negative hx hleast hlow' hhigh' (by omega) (by omega)
  refine ⟨d, hd, fun hn53 ↦ ?_⟩
  have hl53 : l ≤ 52 := Nat.le_of_lt_succ (hl ▸ (Nat.log2_lt hn).mpr hn53)
  -- with at most 53 digits nothing is left behind the point
  have hwhole : (n : Rat) / 2 ^ e = ((n * 2 ^ (52 - l) : Nat) : Int) := by
    have hinv : (2 : Rat) ^ (52 - l) * 2 ^ e = 1 := by
      rw [← zpow_natCast, ← zpow_add₀ two_ne_zero]
      have hzero : ((52 - l : Nat) : Int) + e = 0 := by omega
      rw [hzero, zpow_zero]
    rw [div_eq_iff hpos.ne']
    push_cast
    rw [mul_assoc, hinv, mul_one]
  have hround : (roundEven (n / 2 ^ e) : Rat) = n / 2 ^ e := by
    rw [hwhole, roundEven_intCast]
  rw [hmagnitude ?_, hround, div_mul_cancel₀ _ hpos.ne']
  rw [← hround] at hhigh'
  exact_mod_cast hhigh'

/-- What is known of the size `m` of an integer of size `n` that has been rounded. -/
structure RoundsTo (n : Nat) (m : Rat) : Prop where
  nonneg : 0 ≤ m
  exact : n < 2 ^ 53 → m = n
  lower : ∀ k : Nat, 2 ^ k ≤ n → 2 ^ k ≤ m
  upper : ∀ k : Nat, n ≤ 2 ^ k → m ≤ 2 ^ k

/-- An integer keeps its sign when it is rounded to a double. -/
theorem exists_roundsTo {n : Int} (h : n.natAbs < 2 ^ 64) :
    ∃ m, RoundsTo n.natAbs m ∧ (ofInt n).toRat = signed (n < 0) m := by
  obtain ⟨d, hd, hexact⟩ := exists_nearest?_natCast (n < 0) h
  refine ⟨d.magnitude, ⟨d.magnitude_nonneg, hexact, fun k hk ↦ ?_, fun k hk ↦ ?_⟩, ?_⟩
  · have hsize : (2 : Rat) ^ (k : Int) ≤ n.natAbs := by
      rw [zpow_natCast]
      exact_mod_cast hk
    exact zpow_natCast (2 : Rat) k ▸ two_zpow_le_magnitude hd (by omega) hsize
  · have hsize : (n.natAbs : Rat) ≤ (2 : Rat) ^ (k : Int) := by
      rw [zpow_natCast]
      exact_mod_cast hk
    exact zpow_natCast (2 : Rat) k ▸ magnitude_le_two_zpow hd (by omega) hsize
  · rw [ofInt, hd, Option.getD_some, toRat, (mantissa_of_nearest? hd).1]

/-- Integers below `2 ^ 53` are doubles. -/
theorem toRat_ofInt {n : Int} (h : n.natAbs < 2 ^ 53) : (ofInt n).toRat = n := by
  obtain ⟨m, hm, htoRat⟩ := exists_roundsTo (h.trans (by decide))
  rw [htoRat, hm.exact h, Nat.cast_natAbs]
  rcases lt_or_ge n 0 with hneg | hpos
  · rw [decide_eq_true hneg, signed_true, abs_of_neg hneg, Int.cast_neg, neg_neg]
  · rw [decide_eq_false (not_lt.mpr hpos), signed_false, abs_of_nonneg hpos]

/-- Rounding makes the size of no integer larger than the next power of two. -/
theorem abs_toRat_ofInt_le {n : Int} (h : n.natAbs < 2 ^ 64) {k : Nat} (hk : n.natAbs ≤ 2 ^ k) :
    |(ofInt n).toRat| ≤ 2 ^ k := by
  obtain ⟨m, hm, htoRat⟩ := exists_roundsTo h
  have hupper := hm.upper k hk
  rw [htoRat, abs_signed, abs_of_nonneg hm.nonneg]
  exact hupper

theorem two_pow_le_toRat_ofInt {n : Int} (h : n.natAbs < 2 ^ 64) {k : Nat} (hk : 2 ^ k ≤ n) :
    2 ^ k ≤ (ofInt n).toRat := by
  obtain ⟨m, hm, htoRat⟩ := exists_roundsTo h
  have hpos : 0 ≤ n := le_trans (by positivity) hk
  have hlower := hm.lower k (by zify; rwa [abs_of_nonneg hpos])
  rwa [htoRat, decide_eq_false (not_lt.mpr hpos), signed_false]

theorem toRat_ofInt_le_neg_two_pow {n : Int} (h : n.natAbs < 2 ^ 64) {k : Nat} (hk : n ≤ -2 ^ k) :
    (ofInt n).toRat ≤ -2 ^ k := by
  obtain ⟨m, hm, htoRat⟩ := exists_roundsTo h
  have hneg : n < 0 := hk.trans_lt (neg_lt_zero.mpr (by positivity))
  have hlower := hm.lower k (by zify; rw [abs_of_neg hneg]; exact le_neg_of_le_neg hk)
  rw [htoRat, decide_eq_true hneg, signed_true]
  exact neg_le_neg hlower

/-! ## Comparing with a rounded integer -/

theorem compare_congr {a b c d : Rat} (hlt : a < b ↔ c < d) (heq : a = b ↔ c = d) :
    compareOfLessAndEq a b = compareOfLessAndEq c d := by
  simp only [compareOfLessAndEq, hlt, heq]

theorem compare_of_lt {a b c d : Rat} (h : a < b) (h' : c < d) :
    compareOfLessAndEq a b = compareOfLessAndEq c d :=
  compare_congr (iff_of_true h h') (iff_of_false h.ne h'.ne)

theorem compare_of_gt {a b c d : Rat} (h : b < a) (h' : d < c) :
    compareOfLessAndEq a b = compareOfLessAndEq c d :=
  compare_congr (iff_of_false h.not_gt h'.not_gt) (iff_of_false h.ne' h'.ne')

theorem abs_intCast_le {n : Int} {k : Nat} (h : n.natAbs ≤ 2 ^ k) : |(n : Rat)| ≤ 2 ^ k := by
  rw [← Int.cast_abs, Int.abs_eq_natAbs]
  exact_mod_cast h

/-- An integer may be rounded when it is compared with a number that is closer to zero than any
rounded integer, or farther away than any integer. -/
theorem compare_toRat_ofInt {x : Rat} {n : Int} (h : n.natAbs ≤ 2 ^ 63)
    (hx : |x| < 2 ^ 53 ∨ 2 ^ 63 < |x|) :
    compareOfLessAndEq x (ofInt n).toRat = compareOfLessAndEq x n := by
  have h64 : n.natAbs < 2 ^ 64 := h.trans_lt (by decide)
  rcases hx with hx | hx
  · by_cases hn : n.natAbs < 2 ^ 53
    · rw [toRat_ofInt hn]
    obtain ⟨hlow, hhigh⟩ := abs_lt.mp hx
    rcases lt_or_ge n 0 with hneg | hpos
    · have hn' : n ≤ -2 ^ 53 := by omega
      have hround := toRat_ofInt_le_neg_two_pow h64 hn'
      have hcast : (n : Rat) ≤ -2 ^ 53 := by exact_mod_cast hn'
      exact compare_of_gt (hround.trans_lt hlow) (hcast.trans_lt hlow)
    · have hn' : 2 ^ 53 ≤ n := by omega
      have hround := two_pow_le_toRat_ofInt h64 hn'
      have hcast : (2 : Rat) ^ 53 ≤ n := by exact_mod_cast hn'
      exact compare_of_lt (hhigh.trans_le hround) (hhigh.trans_le hcast)
  · obtain ⟨hlow, hhigh⟩ := abs_le.mp (abs_toRat_ofInt_le h64 h)
    obtain ⟨hlow', hhigh'⟩ := abs_le.mp (abs_intCast_le h)
    rcases lt_abs.mp hx with hx | hx
    · exact compare_of_gt (hhigh.trans_lt hx) (hhigh'.trans_lt hx)
    · exact compare_of_lt (by linarith) (by linarith)

end Double
end RecordQuery
