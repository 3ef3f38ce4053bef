import Mathlib.Algebra.Order.Field.Basic
import Mathlib.Data.Option.NAry
import Mathlib.Tactic.Linarith
import DocTree.Proofs.ExactValues
import DocTree.Value.Read

namespace DocTree

namespace Double

theorem mul_two_pow_div (n s k : Nat) :
    n * 2 ^ s / 2 ^ k = if k ≤ s then n * 2 ^ (s - k) else n / 2 ^ (k - s) := by
  split
  · rename_i enough
    obtain ⟨d, rfl⟩ := Nat.exists_eq_add_of_le enough
    rw [Nat.add_sub_cancel_left, Nat.add_comm, pow_add, ← Nat.mul_assoc,
      Nat.mul_div_cancel _ (Nat.two_pow_pos k)]
  · rename_i short
    obtain ⟨d, rfl⟩ := Nat.exists_eq_add_of_le (Nat.le_of_not_le short)
    rw [Nat.add_sub_cancel_left, Nat.add_comm, pow_add,
      Nat.mul_div_mul_right _ _ (Nat.two_pow_pos s)]

theorem mul_two_pow_mod_eq_zero (n s k : Nat) :
    n * 2 ^ s % 2 ^ k = 0 ↔ k ≤ s ∨ n % 2 ^ (k - s) = 0 := by
  by_cases enough : k ≤ s
  · obtain ⟨d, rfl⟩ := Nat.exists_eq_add_of_le enough
    rw [Nat.add_comm, pow_add, ← Nat.mul_assoc, Nat.mul_mod_left]
    simp
  · obtain ⟨d, rfl⟩ := Nat.exists_eq_add_of_le (Nat.le_of_not_le enough)
    rw [Nat.add_sub_cancel_left, Nat.add_comm, pow_add, Nat.mul_mod_mul_right, Nat.mul_eq_zero]
    have positive : 2 ^ s ≠ 0 := (Nat.two_pow_pos s).ne'
    omega

def unitsOfOne : Nat := 2 ^ 1074

theorem unitsOfOne_pos : 0 < unitsOfOne := by
  unfold unitsOfOne
  positivity

theorem unit_eq : unit = (unitsOfOne : ℚ)⁻¹ := by
  have power : (unitsOfOne : ℚ) = 2 ^ 1074 := by rw [unitsOfOne, Nat.cast_pow, Nat.cast_ofNat]
  rw [power, unit, zpow_neg]
  exact congrArg _ (zpow_natCast 2 1074)

theorem units_eq_significand (x : Double) :
    units x.magnitude = x.significand * 2 ^ (max x.exponentField 1 - 1) := by
  unfold units significand
  by_cases empty : x.exponentField = 0
  · have same : x.magnitude / leadingWeight = 0 := empty
    rw [if_pos same, if_pos empty, empty]
    exact (Nat.mul_one _).symm
  · have same : x.magnitude / leadingWeight ≠ 0 := empty
    rw [if_neg same, if_neg empty, Nat.max_eq_left (Nat.one_le_iff_ne_zero.mpr empty)]
    rfl

theorem power_nonneg_iff (x : Double) :
    0 ≤ x.power ↔ 1074 ≤ max x.exponentField 1 - 1 := by
  unfold power
  omega

theorem whole_eq (x : Double) :
    x.whole = if x.isNegative then -((units x.magnitude / unitsOfOne : Nat) : Int)
      else (units x.magnitude / unitsOfOne : Nat) := by
  have up : x.power.toNat = max x.exponentField 1 - 1 - 1074 := by
    unfold power
    omega
  have down : (-x.power).toNat = 1074 - (max x.exponentField 1 - 1) := by
    unfold power
    omega
  rw [units_eq_significand, unitsOfOne, mul_two_pow_div, ← up, ← down,
    ← if_congr x.power_nonneg_iff rfl rfl]
  rfl

theorem fractionSign_eq (x : Double) :
    x.fractionSign = if units x.magnitude % unitsOfOne = 0 then 0
      else if x.isNegative then -1 else 1 := by
  have down : (-x.power).toNat = 1074 - (max x.exponentField 1 - 1) := by
    unfold power
    omega
  have whole : (0 ≤ x.power || x.significand % Nat.pow 2 (-x.power).toNat = 0) = true ↔
      units x.magnitude % unitsOfOne = 0 := by
    rw [units_eq_significand, unitsOfOne, mul_two_pow_mod_eq_zero, ← down, ← x.power_nonneg_iff,
      Bool.or_eq_true, decide_eq_true_eq, decide_eq_true_eq]
    rfl
  exact if_congr whole rfl rfl

def fraction (x : Double) : ℚ :=
  let rest := ((units x.magnitude % unitsOfOne : Nat) : ℚ) * unit
  if x.isNegative then -rest else rest

theorem whole_add_fraction (x : Double) :
    (unitsOfKey x.orderKey : ℚ) * unit = x.whole + x.fraction := by
  have parts : (units x.magnitude : ℚ) * unit =
      (units x.magnitude / unitsOfOne : Nat) + (units x.magnitude % unitsOfOne : Nat) * unit := by
    have one : (unitsOfOne : ℚ) * unit = 1 := by
      rw [unit_eq, mul_inv_cancel₀ (Nat.cast_ne_zero.mpr unitsOfOne_pos.ne')]
    have whole := Nat.div_add_mod (units x.magnitude) unitsOfOne
    conv_lhs => rw [← whole]
    rw [Nat.cast_add, Nat.cast_mul, add_mul, mul_right_comm, one, one_mul]
  rw [unitsOfKey_orderKey, whole_eq, fraction, parts]
  split
  · rw [neg_add, Int.cast_neg, Int.cast_natCast]
  · rw [Int.cast_natCast]

theorem abs_fraction_lt (x : Double) : |x.fraction| < 1 := by
  have rest : ((units x.magnitude % unitsOfOne : Nat) : ℚ) < unitsOfOne :=
    Nat.cast_lt.mpr (Nat.mod_lt _ unitsOfOne_pos)
  have below : ((units x.magnitude % unitsOfOne : Nat) : ℚ) * unit < 1 := by
    rw [unit_eq, ← div_eq_mul_inv, div_lt_one (Nat.cast_pos.mpr unitsOfOne_pos)]
    exact rest
  have positive : 0 ≤ ((units x.magnitude % unitsOfOne : Nat) : ℚ) * unit :=
    mul_nonneg (Nat.cast_nonneg _) unit_pos.le
  have size : |x.fraction| = ((units x.magnitude % unitsOfOne : Nat) : ℚ) * unit := by
    unfold fraction
    split
    · rw [abs_neg, abs_of_nonneg positive]
    · rw [abs_of_nonneg positive]
  rwa [size]

theorem compare_fractionSign (x : Double) :
    Ord.compare 0 x.fractionSign = Ord.compare 0 x.fraction := by
  rw [fractionSign_eq, fraction]
  by_cases whole : units x.magnitude % unitsOfOne = 0
  · rw [if_pos whole, whole, Nat.cast_zero, zero_mul, neg_zero, ite_self]
    rfl
  · have positive : 0 < ((units x.magnitude % unitsOfOne : Nat) : ℚ) * unit :=
      mul_pos (Nat.cast_pos.mpr (Nat.pos_of_ne_zero whole)) unit_pos
    rw [if_neg whole]
    split
    · exact (compare_gt_iff_gt.mpr (neg_neg_of_pos positive)).symm
    · exact (compare_lt_iff_lt.mpr positive).symm

theorem compare_whole_then (i w : Int) {f : ℚ} (small : |f| < 1) :
    (Ord.compare i w).then (Ord.compare 0 f) = Ord.compare (i : ℚ) (w + f) := by
  obtain ⟨low, high⟩ := abs_lt.mp small
  rcases lt_trichotomy i w with less | rfl | greater
  · have step : (i : ℚ) + 1 ≤ w := by exact_mod_cast less
    rw [compare_lt_iff_lt.mpr less, compare_lt_iff_lt.mpr (show (i : ℚ) < w + f by linarith)]
    rfl
  · rw [compare_eq_iff_eq.mpr rfl]
    rcases lt_trichotomy 0 f with above | rfl | below
    · rw [compare_lt_iff_lt.mpr above, compare_lt_iff_lt.mpr (lt_add_of_pos_right _ above)]
      rfl
    · rw [add_zero, compare_eq_iff_eq.mpr rfl, compare_eq_iff_eq.mpr rfl]
      rfl
    · rw [compare_gt_iff_gt.mpr below, compare_gt_iff_gt.mpr (add_lt_of_neg_right _ below)]
      rfl
  · have step : (w : ℚ) + 1 ≤ i := by exact_mod_cast greater
    rw [compare_gt_iff_gt.mpr greater, compare_gt_iff_gt.mpr (show (w + f : ℚ) < i by linarith)]
    rfl

theorem wordBound_value : (unitsOfKey wordBound.orderKey : ℚ) * unit = 2 ^ 64 := by
  have key : wordBound.orderKey = (0x43f0000000000000 : Nat) := by decide
  have exponent : 0x43f0000000000000 / leadingWeight = 1087 := by decide
  have fraction : 0x43f0000000000000 % leadingWeight = 0 := by decide
  have leading : (leadingWeight : ℚ) = 2 ^ 52 := by norm_num [leadingWeight]
  have sum : ((52 : ℕ) : ℤ) + ((1087 - 1 : ℕ) : ℤ) + -1074 = (64 : ℕ) := by norm_num
  rw [key, unitsOfKey_natCast, units, exponent, fraction, if_neg (by decide), Nat.add_zero,
    Int.cast_natCast, Nat.cast_mul, leading, Nat.cast_pow, Nat.cast_ofNat, unit, ← zpow_natCast,
    ← zpow_natCast, ← zpow_natCast, ← zpow_add₀ two_ne_zero, ← zpow_add₀ two_ne_zero, sum]

theorem wordBound_inside :
    0 < wordBound.orderKey ∧ wordBound.orderKey < infiniteMagnitude := by decide

theorem value_monotone {j k : Int} (le : j ≤ k) :
    (unitsOfKey j : ℚ) * unit ≤ unitsOfKey k * unit := by
  have monotone : StrictMono unitsOfKey := fun _ _ => unitsOfKey_lt
  exact mul_le_mul_of_nonneg_right (Int.cast_le.mpr (monotone.monotone le)) unit_pos.le

theorem compareInt_eq {i : Int} (low : -2 ^ 64 < i) (high : i < 2 ^ 64) (x : Double) :
    compareInt i x = (Exact.finite i).compare x.exact := by
  have bound := wordBound_inside
  have above : (i : ℚ) < 2 ^ 64 := by exact_mod_cast high
  have below : -2 ^ 64 < (i : ℚ) := by exact_mod_cast low
  unfold compareInt
  cases number : x.isNaN with
  | true =>
    rw [exact_of_nan number]
    rfl
  | false =>
    rw [exact_of_number number, Bool.false_or]
    unfold exactOfKey
    by_cases large : wordBound.orderKey ≤ x.orderKey
    · have reached := value_monotone large
      rw [wordBound_value] at reached
      rw [if_pos (decide_eq_true large), if_neg (by omega)]
      split
      · rfl
      · exact (compare_lt_iff_lt.mpr (above.trans_le reached)).symm
    · rw [if_neg (by rwa [decide_eq_true_eq])]
      by_cases small : x.orderKey ≤ -wordBound.orderKey
      · have reached := value_monotone small
        rw [unitsOfKey_neg, Int.cast_neg, neg_mul, wordBound_value] at reached
        rw [if_pos small]
        split
        · rfl
        · rw [if_neg (by omega)]
          exact (compare_gt_iff_gt.mpr (reached.trans_lt below)).symm
      · rw [if_neg small, if_neg (by omega), if_neg (by omega), compare_fractionSign,
          compare_whole_then i x.whole x.abs_fraction_lt, whole_add_fraction]
        rfl

end Double

namespace Number

def exact : Number → Exact
  | signed n => .finite n.toInt
  | unsigned n => .finite n.toNat
  | float x => x.exact

theorem compare_finite {α : Type} [LinearOrder α] {f : α → ℚ} (mono : StrictMono f) (a b : α) :
    Ord.compare a b = (Exact.finite (f a)).compare (.finite (f b)) := by
  have same := mono.cmp_map_eq a b
  rw [cmp_eq_compare, cmp_eq_compare] at same
  exact same.symm

theorem compare_eq_exact (x y : Number) : x.compare y = x.exact.compare y.exact := by
  have signedRange : ∀ n : Int64, -2 ^ 64 < n.toInt ∧ n.toInt < 2 ^ 64 := by
    intro n
    have := n.le_toInt
    have := n.toInt_lt
    omega
  have unsignedRange : ∀ n : UInt64, -2 ^ 64 < (n.toNat : Int) ∧ (n.toNat : Int) < 2 ^ 64 := by
    intro n
    have := n.toNat_lt
    omega
  cases x with
  | signed m =>
    cases y with
    | signed n => exact compare_finite Int.cast_strictMono m.toInt n.toInt
    | unsigned n => exact compare_finite Int.cast_strictMono m.toInt n.toNat
    | float y => exact Double.compareInt_eq (signedRange m).1 (signedRange m).2 y
  | unsigned m =>
    cases y with
    | signed n => exact compare_finite Int.cast_strictMono (m.toNat : Int) n.toInt
    | unsigned n => exact compare_finite Nat.strictMono_cast m.toNat n.toNat
    | float y => exact Double.compareInt_eq (unsignedRange m).1 (unsignedRange m).2 y
  | float x =>
    cases y with
    | signed n =>
      rw [← Exact.compare_swap]
      exact congrArg Ordering.swap (Double.compareInt_eq (signedRange n).1 (signedRange n).2 x)
    | unsigned n =>
      rw [← Exact.compare_swap]
      exact congrArg Ordering.swap (Double.compareInt_eq (unsignedRange n).1 (unsignedRange n).2 x)
    | float y => exact x.compareNaNLast_eq y

end Number

namespace Leaf

/-- What the number in a leaf is worth. A float is read from its own bits. -/
def worth? : Leaf → Option Exact
  | int64 n => some (.finite n.toInt)
  | uint64 n => some (.finite n.toNat)
  | half h => some (.ofBits 5 10 h.bits.toNat)
  | double x => some (.ofBits 11 52 x.bits.toNat)
  | _ => none

theorem worth?_eq (x : Leaf) : x.worth? = x.number?.map Number.exact := by
  cases x with
  | half h => exact congrArg some h.toDouble_exact.symm
  | _ => rfl

end Leaf

/-- Any two numbers, in whatever storage, compare as their exact values do. -/
theorem numbers_in_exact_order (x y : Leaf) :
    Option.map₂ Number.compare x.number? y.number? =
      Option.map₂ Exact.compare x.worth? y.worth? := by
  rw [x.worth?_eq, y.worth?_eq, Option.map₂_map_left, Option.map₂_map_right]
  congr 1
  funext a b
  exact a.compare_eq_exact b

end DocTree
