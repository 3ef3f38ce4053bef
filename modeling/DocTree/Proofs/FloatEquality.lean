import DocTree.Proofs.References
import DocTree.Proofs.Rounding
import DocTree.Value.Convert

namespace DocTree

theorem forall₂_imp_of_mem {α β : Type} {r q : α → β → Prop} {as : List α} {bs : List β}
    (implied : ∀ a ∈ as, ∀ b ∈ bs, r a b → q a b) (related : List.Forall₂ r as bs) :
    List.Forall₂ q as bs := by
  rw [List.forall₂_iff_zip] at related ⊢
  refine ⟨related.1, fun near => ?_⟩
  obtain ⟨first, second⟩ := List.of_mem_zip near
  exact implied _ first _ second (related.2 near)

namespace Exact

theorem compare_eq_iff {x y : Exact} : x.compare y = .eq ↔ x = y := by
  constructor
  · intro same
    cases x <;> cases y
    case finite.finite p q => exact congrArg finite (compare_eq_iff_eq.mp same)
    all_goals first | rfl | cases same
  · rintro rfl
    exact x.compare_self

/-- The doubles that a number of this worth becomes. Only rationals are ever rounded. -/
def RoundsTo : Exact → Double → Prop
  | finite q, x => Double.Nearest q x
  | worth, x => x.exact = worth

theorem RoundsTo.of_exact {worth : Exact} {x : Double} (same : x.exact = worth) :
    worth.RoundsTo x := by
  cases worth with
  | finite q => exact Double.Nearest.of_exact same
  | _ => exact same

theorem RoundsTo.iff_exact {worth : Exact} {x y : Double} (rounded : worth.RoundsTo x) :
    worth.RoundsTo y ↔ x.exact = y.exact := by
  constructor
  · intro other
    cases worth with
    | finite q => exact Double.Nearest.exact_eq rounded other
    | _ => exact Eq.trans rounded (Eq.symm other)
  · intro same
    cases worth with
    | finite q => exact Double.Nearest.of_exact_eq rounded same
    | _ => exact same.symm.trans rounded

end Exact

theorem Double.numericEq_iff (x : Double) {y : Double} (number : y.isNaN = false) :
    x.numericEq y = true ↔ x.exact = y.exact := by
  unfold numericEq
  rw [number]
  cases first : x.isNaN with
  | true =>
    rw [exact_of_nan first]
    exact ⟨nofun, fun same => absurd same.symm (exact_ne_nan number)⟩
  | false =>
    have order := compareNaNLast_eq x y
    rw [compareNaNLast, first, number] at order
    rw [← Exact.compare_eq_iff, ← order, compare_eq_iff_eq]
    simp

namespace Number

def rounded : Number → Double
  | signed n => .ofInt n.toInt
  | unsigned n => .ofInt n.toNat
  | float x => x

theorem roundsTo_rounded (n : Number) : n.exact.RoundsTo n.rounded := by
  cases n with
  | signed n =>
    have low := n.le_toInt
    have high := n.toInt_lt
    exact Double.nearest_ofInt (by omega) (by omega)
  | unsigned n =>
    have high := n.toNat_lt
    exact Double.nearest_ofInt (by omega) (by omega)
  | float x => exact .of_exact rfl

end Number

theorem Leaf.equals_double_iff (y : Leaf) (x : Double) :
    y.equals (.double x) = true ↔ y.worth? = some x.exact := by
  rw [y.worth?_eq]
  cases number : y.number? with
  | none =>
    have apart : y.equals (.double x) = false := by
      cases y <;> first | rfl | cases number
    rw [apart]
    exact ⟨nofun, nofun⟩
  | some n =>
    have compared : y.equals (.double x) = decide (n.compare (.float x) = .eq) := by
      unfold equals
      rw [number]
      rfl
    rw [compared, decide_eq_true_iff, n.compare_eq_exact, Exact.compare_eq_iff]
    exact Option.some_inj.symm

/-- All numbers but the integers of more than fifty-three bits. -/
def Leaf.FitsSignificand : Leaf → Prop
  | int64 n => n.toInt.natAbs ≤ 2 ^ 53
  | uint64 n => n.toNat ≤ 2 ^ 53
  | _ => True

theorem Leaf.exists_exact {x : Leaf} {worth : Exact} (isWorth : x.worth? = some worth)
    (fits : x.FitsSignificand) : ∃ y : Double, y.exact = worth := by
  cases x with
  | int64 n =>
    obtain rfl := Option.some.inj isWorth
    exact Double.exists_exact_int fits
  | uint64 n =>
    obtain rfl := Option.some.inj isWorth
    exact Double.exists_exact_int (i := n.toNat) fits
  | half h =>
    obtain rfl := Option.some.inj isWorth
    exact ⟨h.toDouble, h.toDouble_exact⟩
  | double y =>
    obtain rfl := Option.some.inj isWorth
    exact ⟨y, rfl⟩
  | _ => cases isWorth

namespace Value

def worth? (v : Value) : Option Exact := v.leaf?.bind Leaf.worth?

theorem worth?_eq (v : Value) : v.worth? = v.number?.map Number.exact := by
  unfold worth? number?
  cases v.leaf? with
  | none => rfl
  | some x => exact x.worth?_eq

theorem asDouble?_eq (v : Value) : v.asDouble? = v.number?.map Number.rounded := by
  unfold asDouble? number?
  cases v.leaf? with
  | none => rfl
  | some x => cases x <;> rfl

theorem equalsDouble_iff (v : Value) {x : Double} (number : x.isNaN = false) :
    v.equalsDouble x = true ↔ ∃ worth, v.worth? = some worth ∧ worth.RoundsTo x := by
  rw [equalsDouble, asDouble?_eq, worth?_eq]
  cases v.number? with
  | none => simp
  | some n => simp [Double.numericEq_iff _ number, n.roundsTo_rounded.iff_exact]

theorem equals_double_iff (v : Value) (x : Double) :
    v.equals (toValue x) = true ↔ v.worth? = some x.exact := by
  rw [equals_resolve_left]
  unfold worth? leaf?
  obtain ⟨t, y, target⟩ | ⟨t, s, target⟩ | ⟨t, o, target⟩ := v.resolve_cases <;> rw [target]
  · exact y.equals_double_iff x
  · exact ⟨nofun, nofun⟩
  · exact ⟨nofun, nofun⟩

theorem equalItems_iff {vs ws : List Value} :
    equalItems vs ws = true ↔ List.Forall₂ (equals · ·) vs ws := by
  refine ⟨fun equal => ?_, equalItems_of_forall₂⟩
  induction vs generalizing ws with
  | nil =>
    cases ws with
    | nil => exact .nil
    | cons w ws => cases equal
  | cons v vs ih =>
    cases ws with
    | nil => cases equal
    | cons w ws =>
      rw [equalItems, Bool.and_eq_true] at equal
      exact .cons equal.1 (ih equal.2)

theorem equalsList_iff {α : Type} (eq : Value → α → Bool) (v : Value) (xs : List α) :
    v.equalsList eq xs = true ↔
      ∃ s, v.asSequence? = some s ∧ List.Forall₂ (eq · ·) s.items xs := by
  unfold equalsList
  rw [Option.any_eq_true]
  refine exists_congr fun s => and_congr_right fun _ => ?_
  rw [Bool.and_eq_true, decide_eq_true_iff, List.all_eq_true, List.forall₂_iff_zip]
  refine and_congr_right fun _ => ?_
  exact ⟨fun all x y near => all (x, y) near, fun all p near => all near⟩

theorem equals_list_iff {α : Type} [ToValue α] (v : Value) (xs : List α) :
    v.equals (toValue xs) = true ↔
      ∃ s, v.asSequence? = some s ∧ List.Forall₂ (fun w x => w.equals (toValue x)) s.items xs := by
  rw [equals_resolve_left]
  unfold asSequence?
  obtain ⟨t, y, target⟩ | ⟨t, s, target⟩ | ⟨t, o, target⟩ := v.resolve_cases <;> rw [target]
  · exact ⟨nofun, nofun⟩
  · have items : (array t s).equals (toValue xs) = equalItems s.items (xs.map toValue) := by
      rw [equals]
      rfl
    rw [items, equalItems_iff, List.forall₂_map_right_iff]
    simp
  · exact ⟨nofun, nofun⟩

/-- Nothing is lost when the value is taken for a double. It holds no number, or some double is
worth as much. -/
def Representable (v : Value) : Prop :=
  ∀ worth, v.worth? = some worth → ∃ y : Double, y.exact = worth

theorem representable_of_fits {v : Value}
    (fits : ∀ y, v.leaf? = some y → y.FitsSignificand) : v.Representable := by
  intro worth held
  obtain ⟨y, leaf, isWorth⟩ := Option.bind_eq_some_iff.mp held
  exact Leaf.exists_exact isWorth (fits y leaf)

/-- How a value equals a double, and how it equals the value made from one. -/
structure EqualsByWorth (v : Value) (x : Double) : Prop where
  rounded : v.equalsDouble x = true ↔ ∃ worth, v.worth? = some worth ∧ worth.RoundsTo x
  exactly : v.equals (toValue x) = true ↔ v.worth? = some x.exact
  turned : (toValue x).equals v = v.equals (toValue x)
  follows : v.equals (toValue x) = true → v.equalsDouble x = true
  same : v.Representable → v.equalsDouble x = v.equals (toValue x)

theorem equalsByWorth (v : Value) {x : Double} (number : x.isNaN = false) : v.EqualsByWorth x := by
  have rounded := v.equalsDouble_iff number
  have exactly := v.equals_double_iff x
  have follows : v.equals (toValue x) = true → v.equalsDouble x = true :=
    fun equal => rounded.mpr ⟨_, exactly.mp equal, .of_exact rfl⟩
  refine ⟨rounded, exactly, equals_comm _ _, follows, fun representable => ?_⟩
  refine Bool.eq_iff_iff.mpr ⟨fun equal => ?_, follows⟩
  obtain ⟨worth, holds, near⟩ := rounded.mp equal
  obtain ⟨y, rfl⟩ := representable worth holds
  exact exactly.mpr (holds.trans (congrArg some ((Exact.RoundsTo.of_exact rfl).iff_exact.mp near)))

structure EqualsEachByWorth (v : Value) (xs : List Double) : Prop where
  rounded : v.equalsList equalsDouble xs = true ↔ ∃ s, v.asSequence? = some s ∧
    List.Forall₂ (fun w x => ∃ worth, w.worth? = some worth ∧ worth.RoundsTo x) s.items xs
  exactly : v.equals (toValue xs) = true ↔ ∃ s, v.asSequence? = some s ∧
    List.Forall₂ (fun w x => w.worth? = some x.exact) s.items xs
  follows : v.equals (toValue xs) = true → v.equalsList equalsDouble xs = true
  same : (∀ s, v.asSequence? = some s → ∀ w ∈ s.items, w.Representable) →
    v.equalsList equalsDouble xs = v.equals (toValue xs)

theorem equalsEachByWorth (v : Value) {xs : List Double} (numbers : ∀ x ∈ xs, x.isNaN = false) :
    v.EqualsEachByWorth xs := by
  have pairs : ∀ w : Value, ∀ x ∈ xs, w.EqualsByWorth x :=
    fun w x mem => w.equalsByWorth (numbers x mem)
  have rounded := v.equalsList_iff equalsDouble xs
  have exactly := v.equals_list_iff xs
  refine ⟨rounded.trans ?_, exactly.trans ?_, fun equal => ?_, fun representable => ?_⟩
  · refine exists_congr fun s => and_congr_right fun _ => ⟨?_, ?_⟩
    · exact forall₂_imp_of_mem fun w _ x mem => (pairs w x mem).rounded.mp
    · exact forall₂_imp_of_mem fun w _ x mem => (pairs w x mem).rounded.mpr
  · refine exists_congr fun s => and_congr_right fun _ => ⟨?_, ?_⟩
    · exact forall₂_imp_of_mem fun w _ x mem => (pairs w x mem).exactly.mp
    · exact forall₂_imp_of_mem fun w _ x mem => (pairs w x mem).exactly.mpr
  · obtain ⟨s, held, equal⟩ := exactly.mp equal
    exact rounded.mpr
      ⟨s, held, forall₂_imp_of_mem (fun w _ x mem => (pairs w x mem).follows) equal⟩
  · rw [Bool.eq_iff_iff, rounded, exactly]
    refine exists_congr fun s => and_congr_right fun held => ⟨?_, ?_⟩
    · refine forall₂_imp_of_mem fun w inside x mem equal => ?_
      exact ((pairs w x mem).same (representable s held w inside)).symm.trans equal
    · exact forall₂_imp_of_mem fun w _ x mem => (pairs w x mem).follows

end Value

/-- A value equals a double that its number is rounded to. It equals the value made from the
double only if the number is worth that much, so the two may differ for integers of more than
fifty-three bits and for nothing else. Arrays against lists of doubles follow their elements. -/
theorem doubles_equal_by_rounding (v : Value) :
    (∀ x : Double, x.isNaN = false → v.EqualsByWorth x) ∧
      (∀ xs : List Double, (∀ x ∈ xs, x.isNaN = false) → v.EqualsEachByWorth xs) ∧
      ((∀ y, v.leaf? = some y → y.FitsSignificand) → v.Representable) :=
  ⟨fun _ => v.equalsByWorth, fun _ => v.equalsEachByWorth, Value.representable_of_fits⟩

theorem doubles_equal_by_rounding_sample :
    (Value.ofInt64 9007199254740992).EqualsByWorth ⟨0x4340000000000000⟩ ∧
      (Value.list [.ofInt64 9007199254740992, .null]).EqualsEachByWorth [⟨0x4340000000000000⟩] ∧
      (Value.ofInt64 9007199254740992).Representable :=
  ⟨(doubles_equal_by_rounding _).1 _ (by decide),
    (doubles_equal_by_rounding _).2.1 _ (by decide),
    (doubles_equal_by_rounding _).2.2 (by rintro y ⟨⟩; exact Nat.le_refl (2 ^ 53))⟩

/-- The integer after two to the fifty-third equals that double, and is not worth as much. -/
theorem integer_equals_its_rounding :
    (Value.ofInt64 9007199254740993).worth? = some (.finite 9007199254740993) ∧
      (Double.mk 0x4340000000000000).exact = .finite 9007199254740992 ∧
      (Value.ofInt64 9007199254740993).equalsDouble ⟨0x4340000000000000⟩ = true ∧
      (Value.ofInt64 9007199254740993).equals (toValue (Double.mk 0x4340000000000000)) = false ∧
      (Value.list [.ofInt64 9007199254740993]).equalsList Value.equalsDouble
        [⟨0x4340000000000000⟩] = true ∧
      (Value.list [.ofInt64 9007199254740993]).equals (toValue [Double.mk 0x4340000000000000]) =
        false := by
  refine ⟨?_, ?_, by decide +kernel, by decide +kernel, by decide +kernel, by decide +kernel⟩
  · have word : (9007199254740993 : Int64).toInt = 9007199254740993 := by decide
    norm_num [Value.worth?, Value.ofInt64, Value.leaf?, Value.resolve, Leaf.worth?, word]
  · have bits : (0x4340000000000000 : UInt64).toNat = 0x4340000000000000 := by decide
    norm_num [Double.exact, Exact.ofBits, bits]

end DocTree
