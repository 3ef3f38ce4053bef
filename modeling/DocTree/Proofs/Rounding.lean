import Mathlib.Algebra.Order.Group.Unbundled.Abs
import DocTree.Proofs.NumberOrder

/-!
Integers as doubles. The key of the double nearest to a number is the only one that has the number
between the midpoints to its neighbours.
-/

namespace DocTree.Double

/-- The double to which `q` is rounded. Every other finite double is farther away, or it is just
as far, and then this one has an even significand or they are the two zeros. -/
def Nearest (q : ℚ) (x : Double) : Prop :=
  ∃ p, x.exact = .finite p ∧ ∀ (y : Double) (r : ℚ), y.exact = .finite r →
    |p - q| < |r - q| ∨ |p - q| = |r - q| ∧ (r = p ∨ x.significand % 2 = 0)

def valueOfKey (key : Int) : ℚ := unitsOfKey key * unit

theorem valueOfKey_lt {j k : Int} (less : j < k) : valueOfKey j < valueOfKey k :=
  mul_lt_mul_of_pos_right (Int.cast_lt.mpr (unitsOfKey_lt less)) unit_pos

theorem valueOfKey_le {j k : Int} (atMost : j ≤ k) : valueOfKey j ≤ valueOfKey k := by
  rcases Int.lt_or_eq_of_le atMost with less | rfl
  · exact (valueOfKey_lt less).le
  · exact le_rfl

theorem valueOfKey_injective {j k : Int} (same : valueOfKey j = valueOfKey k) : j = k := by
  rcases lt_trichotomy j k with less | equal | greater
  · exact absurd same (valueOfKey_lt less).ne
  · exact equal
  · exact absurd same (valueOfKey_lt greater).ne'

theorem valueOfKey_neg (key : Int) : valueOfKey (-key) = -valueOfKey key := by
  rw [valueOfKey, unitsOfKey_neg, Int.cast_neg, neg_mul, valueOfKey]

theorem valueOfKey_natCast (m : Nat) : valueOfKey m = units m * unit := by
  rw [valueOfKey, unitsOfKey_natCast, Int.cast_natCast]

theorem exactOfKey_of_finite {key : Int} (finite : key.natAbs < infiniteMagnitude) :
    exactOfKey key = .finite (valueOfKey key) := by
  unfold exactOfKey
  rw [if_neg (by omega), if_neg (by omega), valueOfKey]

theorem exact_eq_finite_iff {x : Double} {p : ℚ} :
    x.exact = .finite p ↔ x.magnitude < infiniteMagnitude ∧ valueOfKey x.orderKey = p := by
  have size := x.orderKey_natAbs
  constructor
  · intro worth
    have number : x.isNaN = false := by
      by_contra notNumber
      rw [exact_of_nan (Bool.not_eq_false _ ▸ notNumber)] at worth
      cases worth
    have inside : x.magnitude ≤ infiniteMagnitude := Nat.le_of_not_lt (of_decide_eq_false number)
    have finite : x.magnitude < infiniteMagnitude := by
      refine Nat.lt_of_le_of_ne inside fun full => ?_
      rw [exact_of_infinite full, exactOfKey] at worth
      split at worth
      · cases worth
      · rw [if_pos (by omega)] at worth
        cases worth
    refine ⟨finite, ?_⟩
    rw [exact_of_finite finite, exactOfKey_of_finite (by omega)] at worth
    exact Exact.finite.inj worth
  · rintro ⟨finite, rfl⟩
    rw [exact_of_finite finite, exactOfKey_of_finite (by omega)]

theorem exists_orderKey {key : Int} (finite : key.natAbs < infiniteMagnitude) :
    ∃ x : Double, x.orderKey = key := by
  have small : key.natAbs < signWeight := finite.trans (by decide)
  refine ⟨ofMagnitude (key < 0) key.natAbs, ?_⟩
  rw [orderKey, isNegative_ofMagnitude _ small, magnitude_ofMagnitude _ small]
  by_cases negative : key < 0
  · rw [decide_eq_true negative, if_pos rfl]
    omega
  · rw [decide_eq_false negative, if_neg Bool.false_ne_true]
    omega

theorem significand_even_iff (x : Double) : x.significand % 2 = 0 ↔ x.orderKey % 2 = 0 := by
  have size := x.orderKey_natAbs
  rw [magnitude_eq] at size
  unfold significand leadingWeight at *
  split <;> omega

/-- No finite key is nearer to `q`, and none but those next to an even key are as near. -/
def Closest (q : ℚ) (key : Int) : Prop :=
  ∀ other : Int, other.natAbs < infiniteMagnitude → other ≠ key →
    |valueOfKey key - q| < |valueOfKey other - q| ∨
      |valueOfKey key - q| = |valueOfKey other - q| ∧ key % 2 = 0

theorem nearest_iff {q : ℚ} {x : Double} :
    Nearest q x ↔ x.magnitude < infiniteMagnitude ∧ Closest q x.orderKey := by
  constructor
  · rintro ⟨p, worth, best⟩
    obtain ⟨finite, rfl⟩ := exact_eq_finite_iff.mp worth
    refine ⟨finite, fun other otherFinite apart => ?_⟩
    obtain ⟨y, rfl⟩ := exists_orderKey otherFinite
    rw [y.orderKey_natAbs] at otherFinite
    rcases best y _ (exact_eq_finite_iff.mpr ⟨otherFinite, rfl⟩) with nearer | ⟨tie, same | even⟩
    · exact .inl nearer
    · exact absurd (valueOfKey_injective same) apart
    · exact .inr ⟨tie, x.significand_even_iff.mp even⟩
  · rintro ⟨finite, closest⟩
    refine ⟨_, exact_eq_finite_iff.mpr ⟨finite, rfl⟩, fun y r worth => ?_⟩
    obtain ⟨otherFinite, rfl⟩ := exact_eq_finite_iff.mp worth
    by_cases same : y.orderKey = x.orderKey
    · exact .inr ⟨by rw [same], .inl (by rw [same])⟩
    · rw [← y.orderKey_natAbs] at otherFinite
      rcases closest _ otherFinite same with nearer | ⟨tie, even⟩
      · exact .inl nearer
      · exact .inr ⟨tie, .inr (x.significand_even_iff.mpr even)⟩

theorem upper_nearer {a b q : ℚ} (less : a < b) (above : a + b < 2 * q) :
    |b - q| < |a - q| :=
  sq_lt_sq.mp (by nlinarith)

theorem lower_nearer {a b q : ℚ} (less : a < b) (below : 2 * q < a + b) :
    |a - q| < |b - q| :=
  sq_lt_sq.mp (by nlinarith)

theorem midpoint_ties {a b q : ℚ} (middle : a + b = 2 * q) : |a - q| = |b - q| := by
  rw [show a - q = -(b - q) by linarith, abs_neg]

namespace Closest

variable {q : ℚ} {key other : Int}

theorem neg (closest : Closest q key) : Closest (-q) (-key) := by
  intro other finite apart
  have flip : ∀ k, |valueOfKey (-k) - -q| = |valueOfKey k - q| := by
    intro k
    rw [valueOfKey_neg, ← abs_neg, neg_sub, sub_neg_eq_add, neg_add_eq_sub]
  have mirrored := closest (-other) (by omega) (by omega)
  rw [← flip (-other), neg_neg, ← flip key] at mirrored
  exact mirrored.imp id fun ⟨tie, even⟩ => ⟨tie, by omega⟩

theorem of_value (hit : valueOfKey key = q) : Closest q key := by
  intro other _ apart
  have off : valueOfKey other - q ≠ 0 :=
    sub_ne_zero.mpr fun same => apart (valueOfKey_injective (same.trans hit.symm))
  rw [hit, sub_self, abs_zero]
  exact .inl (abs_pos.mpr off)

/-- Between the midpoints to its neighbours a key is the closest, and on them if it is even. -/
theorem of_midpoints (low : valueOfKey (key - 1) + valueOfKey key ≤ 2 * q)
    (lowTie : valueOfKey (key - 1) + valueOfKey key = 2 * q → key % 2 = 0)
    (high : 2 * q ≤ valueOfKey key + valueOfKey (key + 1))
    (highTie : 2 * q = valueOfKey key + valueOfKey (key + 1) → key % 2 = 0) :
    Closest q key := by
  intro other _ apart
  rcases Int.lt_or_gt_of_ne apart with before | after
  · have less := valueOfKey_lt before
    have reach := valueOfKey_le (show other ≤ key - 1 by omega)
    rcases lt_or_eq_of_le (show valueOfKey other + valueOfKey key ≤ 2 * q by linarith) with
      inside | middle
    · exact .inl (upper_nearer less inside)
    · exact .inr ⟨(midpoint_ties middle).symm, lowTie (by linarith)⟩
  · have less := valueOfKey_lt after
    have reach := valueOfKey_le (show key + 1 ≤ other by omega)
    rcases lt_or_eq_of_le (show 2 * q ≤ valueOfKey key + valueOfKey other by linarith) with
      inside | middle
    · exact .inl (lower_nearer less inside)
    · exact .inr ⟨midpoint_ties middle.symm, highTie (by linarith)⟩

theorem below (above : valueOfKey key ≤ q) (half : 2 * q ≤ valueOfKey key + valueOfKey (key + 1))
    (tie : 2 * q = valueOfKey key + valueOfKey (key + 1) → key % 2 = 0) : Closest q key := by
  have before := valueOfKey_lt (show key - 1 < key by omega)
  exact .of_midpoints (by linarith) (fun middle => by linarith) half tie

theorem above (below : q ≤ valueOfKey (key + 1))
    (half : valueOfKey key + valueOfKey (key + 1) ≤ 2 * q)
    (tie : valueOfKey key + valueOfKey (key + 1) = 2 * q → (key + 1) % 2 = 0) :
    Closest q (key + 1) := by
  have after := valueOfKey_lt (show key + 1 < key + 1 + 1 by omega)
  refine .of_midpoints ?_ ?_ (by linarith) fun middle => by linarith
  · rwa [Int.add_sub_cancel]
  · rwa [Int.add_sub_cancel]

theorem unique (first : Closest q key) (second : Closest q other)
    (finite : key.natAbs < infiniteMagnitude) (finite' : other.natAbs < infiniteMagnitude) :
    key = other := by
  wlog less : key < other generalizing key other
  · rcases Int.lt_or_eq_of_le (Int.not_lt.mp less) with greater | same
    · exact (this second first finite' finite greater).symm
    · exact same.symm
  exfalso
  rcases first other finite' (by omega) with nearer | ⟨tie, even⟩
  · rcases second key finite (by omega) with nearer' | ⟨tie', _⟩
    · exact lt_asymm nearer nearer'
    · exact nearer.ne' tie'
  -- In a tie both keys are even, so one lies between them, and that one is nearer.
  · have even' : other % 2 = 0 := by
      rcases second key finite (by omega) with nearer' | ⟨_, even'⟩
      · exact absurd tie nearer'.ne'
      · exact even'
    have step := valueOfKey_lt (show key < key + 1 by omega)
    have gap := valueOfKey_lt (show key + 1 < other by omega)
    have middle : valueOfKey key + valueOfKey other = 2 * q := by
      rcases abs_eq_abs.mp tie with same | opposite <;> linarith
    have nearer : |valueOfKey (key + 1) - q| < |valueOfKey key - q| :=
      upper_nearer step (by linarith)
    rcases first (key + 1) (by omega) (by omega) with farther | ⟨same, _⟩
    · exact lt_asymm nearer farther
    · exact nearer.ne' same

end Closest

theorem Nearest.exact_eq {q : ℚ} {x y : Double} (first : Nearest q x) (second : Nearest q y) :
    x.exact = y.exact := by
  obtain ⟨finite, closest⟩ := nearest_iff.mp first
  obtain ⟨finite', closest'⟩ := nearest_iff.mp second
  have same := closest.unique closest' (x.orderKey_natAbs ▸ finite) (y.orderKey_natAbs ▸ finite')
  rw [exact_of_finite finite, exact_of_finite finite', same]

theorem Nearest.of_exact {q : ℚ} {x : Double} (worth : x.exact = .finite q) : Nearest q x := by
  obtain ⟨finite, hit⟩ := exact_eq_finite_iff.mp worth
  exact nearest_iff.mpr ⟨finite, .of_value hit⟩

theorem Nearest.of_exact_eq {q : ℚ} {x y : Double} (nearest : Nearest q x)
    (same : x.exact = y.exact) : Nearest q y := by
  obtain ⟨finite, closest⟩ := nearest_iff.mp nearest
  obtain ⟨finite', value⟩ := exact_eq_finite_iff.mp
    (same ▸ exact_eq_finite_iff.mpr ⟨finite, rfl⟩ : y.exact = .finite (valueOfKey x.orderKey))
  -- Only the two zeros share a value without being one double, and they share the key too.
  exact nearest_iff.mpr ⟨finite', valueOfKey_injective value ▸ closest⟩

/-- The significand may also be the next power of two, to which rounding carries. -/
theorem units_carried (k : Nat) {s : Nat} (low : leadingWeight ≤ s) (high : s ≤ 2 * leadingWeight) :
    units (k * leadingWeight + s) = s * 2 ^ k := by
  rcases Nat.lt_or_eq_of_le high with inside | rfl
  · exact units_normal k low inside
  · have carried := units_normal (k + 1) le_rfl (by decide : leadingWeight < 2 * leadingWeight)
    have next : k * leadingWeight + 2 * leadingWeight =
        (k + 1) * leadingWeight + leadingWeight := by ring
    rw [next, carried, pow_succ]
    ring

/-- A key of the exponent at which a significand of fifty-three bits counts in steps of
`2 ^ d`. -/
def wordKey (d s : Nat) : Nat := (d + 1074) * leadingWeight + s

theorem valueOfKey_wordKey (d : Nat) {s : Nat} (low : leadingWeight ≤ s)
    (high : s ≤ 2 * leadingWeight) : valueOfKey (wordKey d s) = s * 2 ^ d := by
  have powers : (2 : ℚ) ^ (d + 1074) * unit = 2 ^ d := by
    rw [pow_add, mul_assoc, unit, ← zpow_natCast 2 1074, ← zpow_add₀ two_ne_zero]
    norm_num
  rw [valueOfKey_natCast, wordKey, units_carried _ low high, Nat.cast_mul, Nat.cast_pow,
    Nat.cast_ofNat, mul_assoc, powers]

/-- Cutting off `d` bits and rounding to even finds the closest key. -/
theorem closest_halfEven {m d : Nat} (low : leadingWeight ≤ m / 2 ^ d)
    (high : m / 2 ^ d < 2 * leadingWeight) : Closest m (wordKey d (halfEven m d)) := by
  have here := valueOfKey_wordKey d low high.le
  have next := valueOfKey_wordKey d (Nat.le_succ_of_le low) high
  have after : (wordKey d (m / 2 ^ d + 1) : Int) = wordKey d (m / 2 ^ d) + 1 := by
    unfold wordKey
    omega
  have parity : wordKey d (m / 2 ^ d) % 2 = m / 2 ^ d % 2 := by
    unfold wordKey leadingWeight
    omega
  have whole : (m : ℚ) = (m / 2 ^ d : Nat) * 2 ^ d + (m % 2 ^ d : Nat) := by
    exact_mod_cast (Nat.div_add_mod' m (2 ^ d)).symm
  have rest : ((m % 2 ^ d : Nat) : ℚ) < 2 ^ d := by
    exact_mod_cast Nat.mod_lt m (Nat.two_pow_pos d)
  have positive : (0 : ℚ) ≤ (m % 2 ^ d : Nat) := Nat.cast_nonneg _
  rw [Nat.succ_eq_add_one, after, Nat.cast_succ] at next
  -- How far the midpoint of the two keys around `m` lies above it, counted twice.
  have gap : valueOfKey (wordKey d (m / 2 ^ d)) + valueOfKey (wordKey d (m / 2 ^ d) + 1) - 2 * m =
      (2 ^ d : Nat) - (2 * (m % 2 ^ d) : Nat) := by
    rw [here, next, whole]
    push_cast
    ring
  have tie_iff : valueOfKey (wordKey d (m / 2 ^ d)) + valueOfKey (wordKey d (m / 2 ^ d) + 1) =
      2 * m ↔ 2 ^ d = 2 * (m % 2 ^ d) := by
    rw [← sub_eq_zero, gap, sub_eq_zero, Nat.cast_inj]
  unfold halfEven
  dsimp only [Nat.pow_eq]
  simp only [Bool.or_eq_true, Bool.and_eq_true, decide_eq_true_eq]
  split
  · rename_i up
    have half : 2 ^ d ≤ 2 * (m % 2 ^ d) := by omega
    rw [after]
    refine .above (by linarith) ?_ fun tie => ?_
    · rwa [← sub_nonpos, gap, sub_nonpos, Nat.cast_le]
    · have middle := tie_iff.mp tie
      omega
  · rename_i down
    have half : 2 * (m % 2 ^ d) ≤ 2 ^ d := by omega
    refine .below (by linarith) ?_ fun tie => ?_
    · rwa [← sub_nonneg, gap, sub_nonneg, Nat.cast_le]
    · have middle := tie_iff.mp tie.symm
      omega

theorem halfEven_le (m d : Nat) : halfEven m d ≤ m / 2 ^ d + 1 := by
  unfold halfEven
  dsimp only [Nat.pow_eq]
  split <;> omega

theorem nearestMagnitude_lt (m : Nat) (e : Int) : nearestMagnitude m e < signWeight := by
  have infinite : infiniteMagnitude < signWeight := by decide
  unfold nearestMagnitude
  split
  · decide
  · exact (Nat.min_le_right _ _).trans_lt infinite

theorem cut_bounds {m d : Nat} (size : m.log2 = 52 + d) (positive : m ≠ 0) :
    leadingWeight ≤ m / 2 ^ d ∧ m / 2 ^ d < 2 * leadingWeight := by
  have leading : leadingWeight = 2 ^ 52 := by decide
  constructor
  · rw [Nat.le_div_iff_mul_le (Nat.two_pow_pos d), leading, ← pow_add, ← size]
    exact Nat.log2_self_le positive
  · rw [Nat.div_lt_iff_lt_mul (Nat.two_pow_pos d), leading, ← pow_succ', ← pow_add]
    exact Nat.lt_log2_self.trans_eq (congrArg _ (by omega))

theorem wordKey_finite {m d : Nat} (high : m / 2 ^ d < 2 * leadingWeight) (word : d ≤ 11) :
    wordKey d (halfEven m d) < infiniteMagnitude := by
  have cut := halfEven_le m d
  unfold wordKey infiniteMagnitude leadingWeight at *
  omega

theorem nearestMagnitude_of_long {m d : Nat} (size : m.log2 = 52 + d) (long : 0 < d)
    (finite : wordKey d (halfEven m d) < infiniteMagnitude) :
    nearestMagnitude m 0 = wordKey d (halfEven m d) := by
  have positive : m ≠ 0 := by
    rintro rfl
    have nothing : (0 : Nat).log2 = 0 := by decide
    omega
  have target : max (0 + (m.log2 : Int) - 52) (-1074) = d := by omega
  unfold nearestMagnitude
  rw [if_neg positive]
  dsimp only
  rw [target, if_neg (by omega), Int.sub_zero, Int.toNat_natCast]
  exact Nat.min_eq_left finite.le

theorem closest_nearestMagnitude {m : Nat} (word : m < 2 ^ 64) :
    nearestMagnitude m 0 < infiniteMagnitude ∧ Closest m (nearestMagnitude m 0) := by
  have held := nearestMagnitude_lt m 0
  by_cases fits : m.log2 ≤ 52
  · have worth := exact_nearest (e := 0) false fits (by omega) (by omega)
    obtain ⟨finite, hit⟩ := exact_eq_finite_iff.mp worth
    rw [orderKey, nearest, isNegative_ofMagnitude _ held, magnitude_ofMagnitude _ held] at *
    refine ⟨finite, .of_value ?_⟩
    simpa using hit
  · have positive : m ≠ 0 := by
      rintro rfl
      exact fits (by decide)
    have few : m.log2 < 64 := (Nat.log2_lt positive).mpr word
    obtain ⟨d, size⟩ := Nat.exists_eq_add_of_le (Nat.le_of_not_le fits)
    obtain ⟨low, high⟩ := cut_bounds size positive
    have finite := wordKey_finite high (by omega)
    rw [nearestMagnitude_of_long size (by omega) finite]
    exact ⟨finite, closest_halfEven low high⟩

theorem cast_eq_signed (i : Int) : (i : ℚ) = if i < 0 then -(i.natAbs : ℚ) else i.natAbs := by
  split
  · rw [← Int.cast_natCast, ← Int.cast_neg]
    exact congrArg _ (by omega)
  · rw [← Int.cast_natCast]
    exact congrArg _ (by omega)

/-- An integer of at most sixty-four bits becomes the double nearest to it. -/
theorem nearest_ofInt {i : Int} (low : -2 ^ 64 < i) (high : i < 2 ^ 64) :
    Nearest i (ofInt i) := by
  have held := nearestMagnitude_lt i.natAbs 0
  obtain ⟨finite, closest⟩ := closest_nearestMagnitude (m := i.natAbs) (by omega)
  refine nearest_iff.mpr ?_
  rw [ofInt, nearest, orderKey, isNegative_ofMagnitude _ held, magnitude_ofMagnitude _ held,
    cast_eq_signed]
  refine ⟨finite, ?_⟩
  by_cases negative : i < 0
  · rw [decide_eq_true negative, if_pos rfl, if_pos negative]
    exact closest.neg
  · rw [decide_eq_false negative, if_neg Bool.false_ne_true, if_neg negative]
    exact closest

theorem exists_exact_int {i : Int} (small : i.natAbs ≤ 2 ^ 53) :
    ∃ x : Double, x.exact = .finite i := by
  rw [cast_eq_signed]
  rcases Nat.lt_or_eq_of_le small with inside | last
  · refine ⟨nearest (i < 0) i.natAbs 0, ?_⟩
    have fits : i.natAbs.log2 ≤ 52 := by
      by_cases zero : i.natAbs = 0
      · rw [zero]
        decide
      · exact Nat.le_of_lt_succ ((Nat.log2_lt zero).mpr inside)
    rw [exact_nearest _ fits (by omega) (by omega), zpow_zero, mul_one]
    simp only [decide_eq_true_eq]
  · refine ⟨nearest (i < 0) 1 53, ?_⟩
    have power : ((1 : Nat) : ℚ) * 2 ^ (53 : ℤ) = (2 ^ 53 : Nat) := by norm_num
    rw [exact_nearest _ (by decide) (by decide) (by decide), power, last]
    simp only [decide_eq_true_eq]

end DocTree.Double
