import Mathlib.Algebra.Order.Field.Power
import Mathlib.Algebra.Order.Field.Rat
import Mathlib.Order.Compare
import Mathlib.Tactic.FieldSimp
import Mathlib.Tactic.NormNum
import Mathlib.Tactic.Ring
import DocTree.Number.Order

/-!
What numbers are worth, exactly: rationals, the infinities, and NaN. A binary float is read by its
fields, and the keys that order doubles order what they are worth.
-/

namespace DocTree

/-- The value of a number, never rounded. -/
inductive Exact where
  | negativeInfinity
  | finite (q : ℚ)
  | infinity
  | nan

namespace Exact

def rank : Exact → Nat
  | negativeInfinity => 0
  | finite _ => 1
  | infinity => 2
  | nan => 3

/-- Rationals stand between the infinities, and NaN is above everything but itself. -/
def compare : Exact → Exact → Ordering
  | finite p, finite q => Ord.compare p q
  | x, y => Ord.compare x.rank y.rank

/-- A binary float with `e` exponent bits and `f` fraction bits, by its fields: `± 1.fraction`
times a power of two, or `± 0.fraction` where the exponent field is empty. A full exponent field
is for what is not a rational. -/
def ofBits (e f bits : Nat) : Exact :=
  let negative := 2 ^ (e + f) ≤ bits
  let exponent := bits / 2 ^ f % 2 ^ e
  let fraction := bits % 2 ^ f
  let bias : ℤ := 2 ^ (e - 1) - 1
  if exponent = 2 ^ e - 1 then
    if fraction ≠ 0 then nan else if negative then negativeInfinity else infinity
  else
    let size : ℚ :=
      if exponent = 0 then fraction / 2 ^ f * 2 ^ (1 - bias)
      else (1 + fraction / 2 ^ f) * 2 ^ (exponent - bias)
    finite (if negative then -size else size)

theorem compare_swap (x y : Exact) : (x.compare y).swap = y.compare x := by
  cases x <;> cases y
  case finite.finite p q => exact (Std.OrientedOrd.eq_swap).symm
  all_goals rfl

theorem compare_self (x : Exact) : x.compare x = .eq := by
  cases x with
  | finite q => exact Std.ReflOrd.compare_self
  | _ => rfl

theorem compare_nan {x : Exact} (number : x ≠ nan) : x.compare nan = .lt := by
  cases x with
  | nan => exact absurd rfl number
  | _ => rfl

end Exact

namespace Double

/-- The absolute value of a finite double in units of `2 ^ -1074`, from the bits without the
sign. -/
def units (m : Nat) : Nat :=
  if m / leadingWeight = 0 then m % leadingWeight
  else (leadingWeight + m % leadingWeight) * 2 ^ (m / leadingWeight - 1)

theorem units_zero : units 0 = 0 := rfl

theorem units_strictMono : StrictMono units := by
  refine strictMono_nat_of_lt_succ fun m => ?_
  unfold units leadingWeight
  by_cases carries : (m + 1) % 0x10000000000000 = 0
  · have exponent : (m + 1) / 0x10000000000000 = m / 0x10000000000000 + 1 := by omega
    have fraction : m % 0x10000000000000 = 0xfffffffffffff := by omega
    rw [exponent, fraction, carries, if_neg (Nat.succ_ne_zero _), Nat.add_sub_cancel]
    cases m / 0x10000000000000 with
    | zero => decide
    | succ k =>
      have positive : 0 < 2 ^ k := Nat.two_pow_pos k
      rw [if_neg (Nat.succ_ne_zero k), Nat.add_sub_cancel, pow_succ]
      omega
  · have exponent : (m + 1) / 0x10000000000000 = m / 0x10000000000000 := by omega
    have fraction : (m + 1) % 0x10000000000000 = m % 0x10000000000000 + 1 := by omega
    rw [exponent, fraction]
    split
    · exact Nat.lt_succ_self _
    · exact Nat.mul_lt_mul_of_pos_right (by omega) (Nat.two_pow_pos _)

def unitsOfKey (key : Int) : Int := if key < 0 then -units key.natAbs else units key.natAbs

theorem unitsOfKey_natCast (m : Nat) : unitsOfKey m = units m := by
  simp [unitsOfKey]

theorem unitsOfKey_neg (key : Int) : unitsOfKey (-key) = -unitsOfKey key := by
  unfold unitsOfKey
  rw [Int.natAbs_neg]
  rcases lt_trichotomy key 0 with negative | rfl | positive
  · rw [if_neg (by omega), if_pos negative, neg_neg]
  · rfl
  · rw [if_pos (by omega), if_neg (by omega)]

theorem unitsOfKey_lt {j k : Int} (less : j < k) : unitsOfKey j < unitsOfKey k := by
  unfold unitsOfKey
  split <;> split
  · have := units_strictMono (show k.natAbs < j.natAbs by omega)
    omega
  · have := units_strictMono (show 0 < j.natAbs by omega)
    rw [units_zero] at this
    omega
  · omega
  · have := units_strictMono (show j.natAbs < k.natAbs by omega)
    omega

def exact (x : Double) : Exact := .ofBits 11 52 x.bits.toNat

def unit : ℚ := 2 ^ (-1074 : ℤ)

theorem unit_pos : 0 < unit := zpow_pos two_pos _

theorem bits_exponentField (x : Double) : x.bits.toNat / 2 ^ 52 % 2 ^ 11 = x.exponentField := by
  unfold exponentField magnitude signWeight leadingWeight
  omega

theorem bits_fractionField (x : Double) : x.bits.toNat % 2 ^ 52 = x.fractionField := by
  unfold fractionField magnitude signWeight leadingWeight
  omega

theorem magnitude_eq (x : Double) :
    x.magnitude = leadingWeight * x.exponentField + x.fractionField :=
  (Nat.div_add_mod x.magnitude leadingWeight).symm

theorem exponentField_le (x : Double) : x.exponentField ≤ 2047 := by
  unfold exponentField magnitude signWeight leadingWeight
  omega

theorem fractionField_lt (x : Double) : x.fractionField < leadingWeight :=
  Nat.mod_lt _ (by decide)

theorem exact_of_nan {x : Double} (notNumber : x.isNaN = true) : x.exact = .nan := by
  have above : infiniteMagnitude < x.magnitude := of_decide_eq_true notNumber
  have field := x.exponentField_le
  have fraction := x.fractionField_lt
  rw [magnitude_eq] at above
  unfold infiniteMagnitude leadingWeight at *
  unfold exact Exact.ofBits
  rw [bits_exponentField, bits_fractionField]
  dsimp only
  rw [if_pos (by omega), if_pos (by omega)]

theorem units_of_empty_field {x : Double} (empty : x.exponentField = 0) :
    (units x.magnitude : ℚ) * unit = x.fractionField / 2 ^ 52 * 2 ^ (1 - 1023 : ℤ) := by
  have value : units x.magnitude = x.fractionField := if_pos empty
  have powers : unit = 2 ^ (1 - 1023 : ℤ) / 2 ^ 52 := by
    unfold unit
    rw [← zpow_natCast, ← zpow_sub₀ two_ne_zero]
    norm_num
  rw [value, powers]
  ring

theorem units_of_field {x : Double} (filled : x.exponentField ≠ 0) :
    (units x.magnitude : ℚ) * unit =
      (1 + x.fractionField / 2 ^ 52) * 2 ^ (x.exponentField - 1023 : ℤ) := by
  have value : units x.magnitude =
      (leadingWeight + x.fractionField) * 2 ^ (x.exponentField - 1) := if_neg filled
  have powers : (2 : ℚ) ^ (x.exponentField - 1) * unit =
      2 ^ (x.exponentField - 1023 : ℤ) / 2 ^ 52 := by
    unfold unit
    rw [← zpow_natCast, ← zpow_natCast, ← zpow_sub₀ two_ne_zero, ← zpow_add₀ two_ne_zero]
    congr 1
    omega
  have leading : (leadingWeight : ℚ) = 2 ^ 52 := by norm_num [leadingWeight]
  rw [value, Nat.cast_mul, mul_assoc, Nat.cast_pow, Nat.cast_ofNat, powers, Nat.cast_add, leading]
  field_simp

theorem unitsOfKey_orderKey (x : Double) :
    (unitsOfKey x.orderKey * unit : ℚ) =
      if x.isNegative then -(units x.magnitude * unit) else units x.magnitude * unit := by
  unfold orderKey
  split
  · rw [unitsOfKey_neg, unitsOfKey_natCast, Int.cast_neg, Int.cast_natCast, neg_mul]
  · rw [unitsOfKey_natCast, Int.cast_natCast]

/-- The number with this key. The outermost keys are those of the infinities. -/
def exactOfKey (key : Int) : Exact :=
  if key = -infiniteMagnitude then .negativeInfinity
  else if key = infiniteMagnitude then .infinity
  else .finite (unitsOfKey key * unit)

theorem orderKey_natAbs (x : Double) : x.orderKey.natAbs = x.magnitude := by
  unfold orderKey
  split <;> omega

theorem exact_of_infinite {x : Double} (infinite : x.magnitude = infiniteMagnitude) :
    x.exact = exactOfKey x.orderKey := by
  have field : x.exponentField = 2047 := by
    unfold exponentField
    rw [infinite]
    decide
  have fraction : x.fractionField = 0 := by
    unfold fractionField
    rw [infinite]
    decide
  have sign : 2 ^ (11 + 52) ≤ x.bits.toNat ↔ x.isNegative := (decide_eq_true_iff).symm
  unfold exact Exact.ofBits exactOfKey orderKey
  rw [bits_exponentField, bits_fractionField, field, fraction, infinite]
  dsimp only
  rw [if_pos (by norm_num), if_neg (by omega), if_congr sign rfl rfl]
  split
  · rw [if_pos rfl]
  · rw [if_neg (by decide), if_pos rfl]

theorem exact_of_finite {x : Double} (finite : x.magnitude < infiniteMagnitude) :
    x.exact = exactOfKey x.orderKey := by
  have inside : x.orderKey.natAbs < infiniteMagnitude := x.orderKey_natAbs ▸ finite
  have field : x.exponentField < 2047 := by
    rw [magnitude_eq] at finite
    unfold infiniteMagnitude leadingWeight at finite
    omega
  have bias : (2 : ℤ) ^ (11 - 1) - 1 = 1023 := by norm_num
  unfold exactOfKey
  rw [if_neg (by omega), if_neg (by omega), unitsOfKey_orderKey]
  unfold exact Exact.ofBits
  rw [bits_exponentField, bits_fractionField]
  dsimp only
  rw [if_neg (by omega), bias]
  by_cases empty : x.exponentField = 0
  · rw [if_pos empty, ← units_of_empty_field empty]
    exact congrArg Exact.finite (if_congr (decide_eq_true_iff).symm rfl rfl)
  · rw [if_neg empty, ← units_of_field empty]
    exact congrArg Exact.finite (if_congr (decide_eq_true_iff).symm rfl rfl)

theorem orderKey_bounds {x : Double} (number : x.isNaN = false) :
    -infiniteMagnitude ≤ x.orderKey ∧ x.orderKey ≤ infiniteMagnitude := by
  have inside : x.magnitude ≤ infiniteMagnitude := Nat.le_of_not_lt (of_decide_eq_false number)
  rw [← orderKey_natAbs] at inside
  omega

theorem exact_of_number {x : Double} (number : x.isNaN = false) :
    x.exact = exactOfKey x.orderKey := by
  have inside : x.magnitude ≤ infiniteMagnitude := Nat.le_of_not_lt (of_decide_eq_false number)
  rcases Nat.lt_or_eq_of_le inside with finite | infinite
  · exact exact_of_finite finite
  · exact exact_of_infinite infinite

theorem exact_ne_nan {x : Double} (number : x.isNaN = false) : x.exact ≠ .nan := by
  rw [exact_of_number number]
  unfold exactOfKey
  split
  · nofun
  · split <;> nofun

theorem exactOfKey_lt {j k : Int} (low : -infiniteMagnitude ≤ j) (less : j < k)
    (high : k ≤ infiniteMagnitude) : (exactOfKey j).compare (exactOfKey k) = .lt := by
  unfold exactOfKey
  rw [if_neg (show j ≠ infiniteMagnitude by omega), if_neg (show k ≠ -infiniteMagnitude by omega)]
  split <;> split
  · rfl
  · rfl
  · rfl
  · refine compare_lt_iff_lt.mpr (mul_lt_mul_of_pos_right ?_ unit_pos)
    exact Int.cast_lt.mpr (unitsOfKey_lt less)

theorem compareNaNLast_eq (x y : Double) : compareNaNLast x y = x.exact.compare y.exact := by
  unfold compareNaNLast
  cases first : x.isNaN <;> cases second : y.isNaN <;> dsimp only
  · obtain ⟨low, high⟩ := orderKey_bounds first
    obtain ⟨low', high'⟩ := orderKey_bounds second
    rw [exact_of_number first, exact_of_number second]
    rcases lt_trichotomy x.orderKey y.orderKey with less | same | greater
    · rw [exactOfKey_lt low less high', compare_lt_iff_lt.mpr less]
    · rw [same, Exact.compare_self, compare_eq_iff_eq.mpr rfl]
    · rw [← Exact.compare_swap, exactOfKey_lt low' greater high, compare_gt_iff_gt.mpr greater]
      rfl
  · rw [exact_of_nan second, Exact.compare_nan (exact_ne_nan first)]
  · rw [exact_of_nan first, ← Exact.compare_swap, Exact.compare_nan (exact_ne_nan second)]
    rfl
  · rw [exact_of_nan first, exact_of_nan second]
    rfl

theorem bits_ofMagnitude (negative : Bool) {m : Nat} (small : m < signWeight) :
    (ofMagnitude negative m).bits.toNat = if negative then signWeight + m else m := by
  unfold signWeight at small
  unfold ofMagnitude signWeight
  rw [UInt64.toNat_ofNat']
  split <;> omega

theorem magnitude_ofMagnitude (negative : Bool) {m : Nat} (small : m < signWeight) :
    (ofMagnitude negative m).magnitude = m := by
  unfold magnitude
  rw [bits_ofMagnitude negative small]
  split
  · rw [Nat.add_mod_left, Nat.mod_eq_of_lt small]
  · exact Nat.mod_eq_of_lt small

theorem isNegative_ofMagnitude (negative : Bool) {m : Nat} (small : m < signWeight) :
    (ofMagnitude negative m).isNegative = negative := by
  unfold isNegative
  rw [bits_ofMagnitude negative small]
  cases negative with
  | false => exact decide_eq_false (by simpa using small)
  | true => exact decide_eq_true (by simp)

theorem exact_ofMagnitude (negative : Bool) {m : Nat} (finite : m < infiniteMagnitude) :
    (ofMagnitude negative m).exact =
      .finite (if negative then -(units m * unit) else units m * unit) := by
  have small : m < signWeight := finite.trans (by decide)
  have size := magnitude_ofMagnitude negative small
  have inside := orderKey_natAbs (ofMagnitude negative m)
  rw [size] at inside
  rw [exact_of_finite (by rwa [size]), exactOfKey, if_neg (by omega), if_neg (by omega),
    unitsOfKey_orderKey, size, isNegative_ofMagnitude negative small]

theorem units_normal (k : Nat) {s : Nat} (low : leadingWeight ≤ s) (high : s < 2 * leadingWeight) :
    units (k * leadingWeight + s) = s * 2 ^ k := by
  have positive : 0 < leadingWeight := by decide
  obtain ⟨d, rfl⟩ := Nat.exists_eq_add_of_le low
  have rest : d < leadingWeight := by omega
  have whole : k * leadingWeight + (leadingWeight + d) = d + leadingWeight * (k + 1) := by ring
  unfold units
  rw [whole, Nat.add_mul_div_left _ _ positive, Nat.add_mul_mod_self_left, Nat.div_eq_of_lt rest,
    Nat.mod_eq_of_lt rest, Nat.zero_add, if_neg (Nat.succ_ne_zero k), Nat.add_sub_cancel]

/-- What fits the significand of a double and is neither too small nor too large keeps its
value. -/
theorem exact_nearest (negative : Bool) {m : Nat} {e : Int} (fits : m.log2 ≤ 52)
    (low : -1022 ≤ e + m.log2) (high : e + m.log2 ≤ 1023) :
    (nearest negative m e).exact =
      .finite (if negative then -(m * 2 ^ e) else m * 2 ^ e) := by
  unfold nearest
  by_cases zero : m = 0
  · have nothing : nearestMagnitude 0 e = 0 := rfl
    rw [zero, nothing, exact_ofMagnitude negative (by decide), units_zero, Nat.cast_zero, zero_mul,
      zero_mul]
  obtain ⟨d, room⟩ := Nat.exists_eq_add_of_le fits
  obtain ⟨k, exponent⟩ := Int.eq_ofNat_of_zero_le (show 0 ≤ e + m.log2 + 1022 by omega)
  have leading : leadingWeight = 2 ^ (m.log2 + d) := by
    rw [← room]
    rfl
  have lower : leadingWeight ≤ m * 2 ^ d := by
    rw [leading, pow_add]
    exact Nat.mul_le_mul_right _ (Nat.log2_self_le zero)
  have upper : m * 2 ^ d < 2 * leadingWeight := by
    rw [leading, pow_add, ← Nat.mul_assoc, ← pow_succ']
    exact Nat.mul_lt_mul_of_pos_right Nat.lt_log2_self (Nat.two_pow_pos d)
  have inside : k * leadingWeight + m * 2 ^ d < infiniteMagnitude := by
    have steps : k * leadingWeight ≤ 2045 * leadingWeight := Nat.mul_le_mul_right _ (by omega)
    unfold infiniteMagnitude
    omega
  -- Nothing is cut off: the significand has room for `m * 2 ^ d`.
  have size : nearestMagnitude m e = k * leadingWeight + m * 2 ^ d := by
    have target : max (e + m.log2 - 52) (-1074) = e - d := by omega
    have field : (e - d + 1074).toNat = k := by omega
    have shift : (e - (e - d)).toNat = d := by omega
    unfold nearestMagnitude
    rw [if_neg zero]
    dsimp only
    rw [target, if_pos (by omega), field, shift]
    exact Nat.min_eq_left inside.le
  have value : (units (nearestMagnitude m e) : ℚ) * unit = m * 2 ^ e := by
    have power : e = (d : Int) + (k + -1074) := by omega
    rw [size, units_normal k lower upper, Nat.cast_mul, Nat.cast_mul, Nat.cast_pow, Nat.cast_pow,
      Nat.cast_ofNat, unit, mul_assoc, mul_assoc, ← zpow_natCast, ← zpow_natCast,
      ← zpow_add₀ two_ne_zero, ← zpow_add₀ two_ne_zero, ← power]
  rw [exact_ofMagnitude negative (size ▸ inside), value]

theorem exact_infinity (negative : Bool) :
    (infinity negative).exact = if negative then .negativeInfinity else .infinity := by
  have small : infiniteMagnitude < signWeight := by decide
  have size := magnitude_ofMagnitude negative small
  rw [infinity, exact_of_infinite size, orderKey, size, isNegative_ofMagnitude negative small]
  cases negative <;> rfl

end Double

theorem log2_le_of_lt {m k : Nat} (small : m < 2 ^ k) : m.log2 ≤ k := by
  by_cases zero : m = 0
  · rw [zero]
    exact Nat.zero_le k
  · exact ((Nat.log2_lt zero).mpr small).le

theorem exact_widen {e f : Nat} (positive : 0 < e) (narrow : e ≤ 10) (short : f ≤ 52)
    (bits : Nat) : (widen e f bits).exact = .ofBits e f bits := by
  have double : 2 ^ e = 2 * 2 ^ (e - 1) := by rw [← pow_succ', Nat.sub_add_cancel positive]
  have few : 2 ^ (e - 1) ≤ 2 ^ 9 := Nat.pow_le_pow_right two_pos (by omega)
  have bias : (2 : ℤ) ^ (e - 1) = (2 ^ (e - 1) : Nat) := by push_cast; rfl
  have field : bits / 2 ^ f % 2 ^ e < 2 ^ e := Nat.mod_lt _ (Nat.two_pow_pos e)
  have fraction : bits % 2 ^ f < 2 ^ f := Nat.mod_lt _ (Nat.two_pow_pos f)
  have sign : decide (Nat.pow 2 f * Nat.pow 2 e ≤ bits) = decide (2 ^ (e + f) ≤ bits) := by
    rw [Nat.add_comm, pow_add]
    rfl
  have half : Nat.pow 2 e / 2 = 2 ^ (e - 1) := by
    change 2 ^ e / 2 = _
    omega
  unfold widen Exact.ofBits
  dsimp only
  rw [sign, half, bias]
  simp only [Nat.pow_eq]
  by_cases full : bits / 2 ^ f % 2 ^ e = 2 ^ e - 1
  · rw [if_pos full, if_pos full]
    by_cases empty : bits % 2 ^ f = 0
    · rw [if_pos empty, if_neg (not_not.mpr empty), Double.exact_infinity]
      exact if_congr decide_eq_true_iff rfl rfl
    · rw [if_neg empty, if_pos empty]
      exact Double.exact_of_nan (by decide)
  · have size := log2_le_of_lt fraction
    have leading : (2 ^ f + bits % 2 ^ f).log2 = f := by
      rw [Nat.log2_eq_iff (by omega), pow_succ]
      omega
    have scale : ∀ (m : ℚ) (k : ℤ), m * 2 ^ (k - f) = m / 2 ^ f * 2 ^ k := by
      intro m k
      rw [zpow_sub₀ two_ne_zero, zpow_natCast, ← mul_div_assoc, mul_div_right_comm]
    rw [if_neg full, if_neg full]
    by_cases subnormal : bits / 2 ^ f % 2 ^ e = 0
    · have power : 2 - ((2 ^ (e - 1) : Nat) : ℤ) = 1 - (((2 ^ (e - 1) : Nat) : ℤ) - 1) := by omega
      rw [if_pos subnormal, if_pos subnormal,
        Double.exact_nearest _ (by omega) (by omega) (by omega), scale, power]
      exact congrArg Exact.finite (if_congr decide_eq_true_iff rfl rfl)
    · have power : 2 - ((2 ^ (e - 1) : Nat) : ℤ) - f + (bits / 2 ^ f % 2 ^ e - 1 : Nat) =
          (bits / 2 ^ f % 2 ^ e : Nat) - (((2 ^ (e - 1) : Nat) : ℤ) - 1) - f := by omega
      have significand : ((2 ^ f + bits % 2 ^ f : Nat) : ℚ) / 2 ^ f =
          1 + (bits % 2 ^ f : Nat) / 2 ^ f := by
        rw [Nat.cast_add, Nat.cast_pow, Nat.cast_ofNat, add_div,
          div_self (pow_ne_zero f two_ne_zero)]
      rw [if_neg subnormal, if_neg subnormal,
        Double.exact_nearest _ (by omega) (by omega) (by omega), power, scale, significand]
      exact congrArg Exact.finite (if_congr decide_eq_true_iff rfl rfl)

theorem Half.toDouble_exact (h : Half) : h.toDouble.exact = .ofBits 5 10 h.bits.toNat :=
  exact_widen (by decide) (by decide) (by decide) _

end DocTree
