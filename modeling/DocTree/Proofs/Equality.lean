import DocTree.Proofs.Adoption
import DocTree.Proofs.Members
import DocTree.Value.Order

namespace DocTree

theorem Double.compareNaNLast_self (x : Double) : compareNaNLast x x = .eq := by
  unfold compareNaNLast
  cases x.isNaN
  · exact Std.ReflOrd.compare_self
  · rfl

theorem Double.compareNaNLast_swap (x y : Double) :
    (compareNaNLast x y).swap = compareNaNLast y x := by
  unfold compareNaNLast
  cases x.isNaN <;> cases y.isNaN
  · exact (Std.OrientedOrd.eq_swap).symm
  · rfl
  · rfl
  · rfl

namespace Number

theorem compare_self (x : Number) : x.compare x = .eq := by
  cases x with
  | signed n => exact Std.ReflOrd.compare_self
  | unsigned n => exact Std.ReflOrd.compare_self
  | float x => exact x.compareNaNLast_self

theorem compare_swap (x y : Number) : (x.compare y).swap = y.compare x := by
  cases x <;> cases y
  all_goals first
    | exact (Std.OrientedOrd.eq_swap).symm
    | exact Double.compareNaNLast_swap _ _
    | exact Ordering.swap_swap
    | rfl

theorem compare_eq_comm (x y : Number) : x.compare y = .eq ↔ y.compare x = .eq := by
  rw [← compare_swap x y, Ordering.swap_eq_eq]

end Number

theorem compareKeys_self (key : String) : compareKeys key key = .eq := by
  unfold compareKeys
  rw [if_neg (lt_irrefl key), if_pos rfl]

theorem compareLists_self {α : Type} (cmp : α → α → Ordering) (same : ∀ x, cmp x x = .eq)
    (xs : List α) : compareLists cmp xs xs = .eq := by
  induction xs with
  | nil => rfl
  | cons x xs ih =>
    rw [compareLists, same, ih]
    rfl

namespace Leaf

theorem equals_self (x : Leaf) : x.equals x = true := by
  cases x <;> simp [equals, number?, Number.compare_self]

theorem equals_comm (x y : Leaf) : x.equals y = y.equals x := by
  cases x <;> cases y
  all_goals first
    | exact decide_eq_decide.mpr (Number.compare_eq_comm _ _)
    | exact decide_eq_decide.mpr eq_comm
    | rfl

theorem equals_housed (n : Nat) (x y : Leaf) : (x.housed n).equals y = x.equals y := by
  cases x with
  | text home s =>
    rw [housed]
    split
    · rfl
    · cases y <;> rfl
  | bytes home b => cases y <;> rfl
  | _ => rfl

theorem housed_ne_emptyObject (n : Nat) {x : Leaf} (proper : x ≠ .emptyObject) :
    x.housed n ≠ .emptyObject := by
  intro same
  cases x with
  | text home s =>
    rw [housed] at same
    split at same <;> cases same
  | emptyObject => exact proper rfl
  | _ => cases same

theorem compare_of_equals {x y : Leaf} (equal : x.equals y = true) :
    (Ord.compare x.kind.rank y.kind.rank).then (x.compareSameRank y) = .eq := by
  cases x <;> cases y
  case boolean.boolean b c =>
    obtain rfl := of_decide_eq_true equal
    cases b <;> rfl
  case text.text s _ t =>
    obtain rfl := of_decide_eq_true equal
    exact compareKeys_self s
  case bytes.bytes b _ c =>
    obtain rfl := of_decide_eq_true equal
    exact compareLists_self (fun x y => Ord.compare x.toNat y.toNat)
      (fun x => Std.ReflOrd.compare_self) b
  all_goals first
    | rfl
    | exact of_decide_eq_true equal

end Leaf

namespace Value

theorem resolve_cases (v : Value) : (∃ t x, v.resolve = leaf t x) ∨
    (∃ t s, v.resolve = array t s) ∨ ∃ t o, v.resolve = object t o := by
  cases v with
  | leaf t x => exact .inl ⟨t, x, rfl⟩
  | array t s => exact .inr (.inl ⟨t, s, rfl⟩)
  | object t o => exact .inr (.inr ⟨t, o, rfl⟩)
  | ref t v => exact v.resolve_cases

theorem equals_ref_right : ∀ (v : Value) (t : Tag) (w : Value), v.equals (ref t w) = v.equals w
  | leaf .., _, _ => rfl
  | array .., _, _ => rfl
  | object .., _, _ => rfl
  | ref _ v, t, w => v.equals_ref_right t w

theorem equals_resolve_right (v w : Value) : v.equals w = v.equals w.resolve := by
  cases w with
  | ref t w => exact (v.equals_ref_right t w).trans (v.equals_resolve_right w)
  | _ => rfl

theorem equals_resolve_left (w v : Value) : v.equals w = v.resolve.equals w := by
  cases v with
  | ref t v => exact equals_resolve_left w v
  | _ => rfl

mutual

theorem equals_self : ∀ v : Value, v.equals v = true
  | leaf _ x => x.equals_self
  | array _ s => equalItems_self s.items
  | object _ o => by
    change (decide (o.length = o.length) && equalMembers o.members o.members) = true
    rw [equalMembers_self o.members, decide_eq_true rfl]
    rfl
  | ref t v => (v.equals_ref_right t v).trans v.equals_self

theorem equalItems_self : ∀ vs : List Value, equalItems vs vs = true
  | [] => rfl
  | v :: vs => by
    rw [equalItems, v.equals_self, equalItems_self vs]
    rfl

theorem equalMembers_self : ∀ ms : List (Member Value), equalMembers ms ms = true
  | [] => rfl
  | m :: ms => by
    rw [equalMembers, m.value.equals_self, equalMembers_self ms, decide_eq_true rfl]
    rfl

end

theorem equals_leaf_object (t : Tag) (x : Leaf) (u : Tag) (o : Object Value) :
    (leaf t x).equals (object u o) = (object u o).equals (leaf t x) := by
  obtain ⟨home, capacity, members⟩ := o
  cases x with
  | emptyObject => cases members <;> rfl
  | _ => rfl

mutual

theorem equals_comm : ∀ v w : Value, v.equals w = w.equals v
  | leaf t x, w => by
    rw [equals_resolve_right, equals_resolve_left _ w]
    obtain ⟨u, y, target⟩ | ⟨u, r, target⟩ | ⟨u, p, target⟩ := w.resolve_cases <;> rw [target]
    · exact x.equals_comm y
    · rfl
    · exact equals_leaf_object t x u p
  | array t s, w => by
    rw [equals_resolve_right, equals_resolve_left _ w]
    obtain ⟨u, y, target⟩ | ⟨u, r, target⟩ | ⟨u, p, target⟩ := w.resolve_cases <;> rw [target]
    · rfl
    · exact equalItems_comm s.items r.items
    · rfl
  | object t o, w => by
    rw [equals_resolve_right, equals_resolve_left _ w]
    obtain ⟨u, y, target⟩ | ⟨u, r, target⟩ | ⟨u, p, target⟩ := w.resolve_cases <;> rw [target]
    · exact (equals_leaf_object u y t o).symm
    · rfl
    · change (decide (o.length = p.length) && equalMembers o.members p.members) =
        (decide (p.length = o.length) && equalMembers p.members o.members)
      rw [equalMembers_comm o.members p.members, decide_eq_decide.mpr eq_comm]
  | ref t v, w => (equals_comm v w).trans (w.equals_ref_right t v).symm

theorem equalItems_comm : ∀ vs ws : List Value, equalItems vs ws = equalItems ws vs
  | [], [] => rfl
  | [], _ :: _ => rfl
  | _ :: _, [] => rfl
  | v :: vs, w :: ws => by
    rw [equalItems, equalItems, equals_comm v w, equalItems_comm vs ws]

theorem equalMembers_comm : ∀ ms ns : List (Member Value),
    equalMembers ms ns = equalMembers ns ms
  | [], [] => rfl
  | [], _ :: _ => rfl
  | _ :: _, [] => rfl
  | m :: ms, n :: ns => by
    rw [equalMembers, equalMembers, equals_comm m.value n.value, equalMembers_comm ms ns,
      decide_eq_decide.mpr (eq_comm (a := m.key))]

end

theorem housed_leaf (n : Nat) (t : Tag) {x : Leaf} (proper : x ≠ .emptyObject) :
    (leaf t x).housed n = leaf t (x.housed n) := by
  cases x with
  | emptyObject => exact absurd rfl proper
  | _ => rfl

mutual

theorem equals_housed (n : Nat) : ∀ v w : Value, (v.housed n).equals w = v.equals w
  | leaf t x, w => by
    rw [equals_resolve_right, equals_resolve_right _ w]
    -- The empty object is the one leaf that becomes a container.
    by_cases empty : x = .emptyObject
    · subst empty
      obtain ⟨u, y, target⟩ | ⟨u, r, target⟩ | ⟨u, p, target⟩ := w.resolve_cases <;> rw [target]
      · cases y <;> rfl
      · rfl
      · obtain ⟨home, capacity, members⟩ := p
        cases members <;> rfl
    · rw [housed_leaf n t empty]
      obtain ⟨u, y, target⟩ | ⟨u, r, target⟩ | ⟨u, p, target⟩ := w.resolve_cases <;> rw [target]
      · exact x.equals_housed n y
      · rfl
      · change (decide (x.housed n = .emptyObject) && p.members.isEmpty) =
          (decide (x = .emptyObject) && p.members.isEmpty)
        rw [decide_eq_false empty, decide_eq_false (Leaf.housed_ne_emptyObject n empty)]
  | array t s, w => by
    rw [housed]
    split
    · rfl
    · rw [equals_resolve_right, equals_resolve_right _ w]
      obtain ⟨u, y, target⟩ | ⟨u, r, target⟩ | ⟨u, p, target⟩ := w.resolve_cases <;> rw [target]
      · rfl
      · exact equalItems_housed n s.items r.items
      · rfl
  | object t o, w => by
    rw [housed]
    split
    · rfl
    · have length : (housedMembers n o.members).length = o.members.length := by
        rw [housedMembers_eq_map, List.length_map]
      have against : ∀ ms : List (Member Value),
          (decide ((housedMembers n o.members).length = ms.length) &&
            equalMembers (housedMembers n o.members) ms) =
          (decide (o.members.length = ms.length) && equalMembers o.members ms) := by
        intro ms
        rw [length, equalMembers_housed n o.members ms]
      rw [equals_resolve_right, equals_resolve_right _ w]
      obtain ⟨u, y, target⟩ | ⟨u, r, target⟩ | ⟨u, p, target⟩ := w.resolve_cases <;> rw [target]
      · cases y with
        | emptyObject => exact against []
        | _ => rfl
      · rfl
      · exact against p.members
  | ref t v, w => rfl

theorem equalItems_housed (n : Nat) : ∀ vs ws : List Value,
    equalItems (housedItems n vs) ws = equalItems vs ws
  | [], [] => rfl
  | [], _ :: _ => rfl
  | _ :: _, [] => rfl
  | v :: vs, w :: ws => by
    rw [housedItems, equalItems, equalItems, equals_housed n v w, equalItems_housed n vs ws]

theorem equalMembers_housed (n : Nat) : ∀ ms ns : List (Member Value),
    equalMembers (housedMembers n ms) ns = equalMembers ms ns
  | [], [] => rfl
  | [], _ :: _ => rfl
  | _ :: _, [] => rfl
  | m :: ms, k :: ns => by
    rw [housedMembers, equalMembers, equalMembers, equals_housed n m.value k.value,
      equalMembers_housed n ms ns]

end

mutual

theorem compare_of_equals : ∀ {v w : Value}, v.equals w = true → v.compare w = .eq
  | leaf t x, w, equal => by
    rw [equals_resolve_right] at equal
    rw [compare, kind]
    obtain ⟨u, y, target⟩ | ⟨u, r, target⟩ | ⟨u, p, target⟩ := w.resolve_cases <;>
      rw [target] at equal ⊢
    · exact Leaf.compare_of_equals equal
    · cases equal
    · obtain ⟨empty, none⟩ := (Bool.and_eq_true _ _).mp equal
      rw [of_decide_eq_true empty]
      dsimp only
      rw [if_pos none]
      rfl
  | array t s, w, equal => by
    rw [equals_resolve_right] at equal
    rw [compare, kind]
    obtain ⟨u, y, target⟩ | ⟨u, r, target⟩ | ⟨u, p, target⟩ := w.resolve_cases <;>
      rw [target] at equal ⊢
    · cases equal
    · have items : equalItems s.items r.items = true := equal
      exact compareItems_of_equal items
    · cases equal
  | object t o, w, equal => by
    rw [equals_resolve_right] at equal
    rw [compare, kind, asObject?]
    obtain ⟨u, y, target⟩ | ⟨u, r, target⟩ | ⟨u, p, target⟩ := w.resolve_cases <;>
      rw [target] at equal ⊢
    · cases y with
      | emptyObject =>
        have members : equalMembers o.members [] = true := ((Bool.and_eq_true _ _).mp equal).2
        exact compareMembers_of_equal members
      | _ => cases equal
    · cases equal
    · have members : equalMembers o.members p.members = true :=
        ((Bool.and_eq_true _ _).mp equal).2
      exact compareMembers_of_equal members
  | ref _ v, _, equal => compare_of_equals (v := v) equal

theorem compareItems_of_equal : ∀ {vs ws : List Value},
    equalItems vs ws = true → compareItems vs ws = .eq
  | [], [], _ => rfl
  | v :: vs, w :: ws, equal => by
    rw [equalItems, Bool.and_eq_true] at equal
    rw [compareItems, compare_of_equals equal.1, compareItems_of_equal equal.2]
    rfl

theorem compareMembers_of_equal : ∀ {ms ns : List (Member Value)},
    equalMembers ms ns = true → compareMembers ms ns = .eq
  | [], [], _ => rfl
  | m :: ms, n :: ns, equal => by
    rw [equalMembers, Bool.and_eq_true, Bool.and_eq_true, decide_eq_true_eq] at equal
    obtain ⟨⟨sameKey, sameValue⟩, rest⟩ := equal
    rw [compareMembers, sameKey, compareKeys_self, compare_of_equals sameValue,
      compareMembers_of_equal rest]
    rfl

end

theorem equals_housedIn (h k : Home) (v w : Value) :
    (v.housedIn h).equals (w.housedIn k) = v.equals w := by
  have left : ∀ h (v w : Value), (v.housedIn h).equals w = v.equals w := by
    intro h v w
    cases h with
    | heap => rfl
    | arena n => exact equals_housed n v w
  rw [left, equals_comm, left, equals_comm]

end Value

theorem rel_self (x : Option Value) : Option.Rel (fun v w => v.equals w = true) x x := by
  cases x with
  | none => exact .none
  | some v => exact .some v.equals_self

def Agree (f g : String → Option Value) : Prop :=
  ∀ key, Option.Rel (fun v w => v.equals w = true) (f key) (g key)

theorem Agree.symm {f g : String → Option Value} (agree : Agree f g) : Agree g f := by
  intro key
  have pair := agree key
  generalize f key = a at pair ⊢
  generalize g key = b at pair ⊢
  cases pair with
  | some equal => exact .some (by rwa [Value.equals_comm])
  | none => exact .none

theorem Agree.isSome {f g : String → Option Value} (agree : Agree f g) (key : String) :
    (f key).isSome = (g key).isSome := by
  have pair := agree key
  generalize f key = a at pair ⊢
  generalize g key = b at pair ⊢
  cases pair <;> rfl

theorem agree_of_equalMembers : ∀ {ms ns : List (Member Value)},
    Value.equalMembers ms ns = true → Agree (lookup ms) (lookup ns)
  | [], [], _ => fun _ => .none
  | m :: ms, n :: ns, equal => by
    rw [Value.equalMembers, Bool.and_eq_true, Bool.and_eq_true, decide_eq_true_eq] at equal
    obtain ⟨⟨sameKey, sameValue⟩, rest⟩ := equal
    intro key
    rw [lookup_cons, lookup_cons, sameKey]
    split
    · exact .some sameValue
    · exact agree_of_equalMembers rest key

theorem Agree.map_key {ms ns : List (Member Value)} (agree : Agree (lookup ms) (lookup ns))
    (first : AscendingBy Member.key ms) (second : AscendingBy Member.key ns) :
    ms.map Member.key = ns.map Member.key := by
  have ascending : ∀ {ks : List (Member Value)}, AscendingBy Member.key ks →
      AscendingBy id (ks.map Member.key) := fun h => List.pairwise_map.mpr h
  apply (ascending first).ext (ascending second)
  intro key
  rw [← lookup_isSome_iff, ← lookup_isSome_iff, agree.isSome key]

theorem Agree.tail {m n : Member Value} {ms ns : List (Member Value)}
    (agree : Agree (lookup (m :: ms)) (lookup (n :: ns))) (sameKey : m.key = n.key)
    (unknown : m.key ∉ ms.map Member.key) (unknown' : m.key ∉ ns.map Member.key) :
    Agree (lookup ms) (lookup ns) := by
  intro key
  have pair := agree key
  rw [lookup_cons, lookup_cons, ← sameKey] at pair
  split at pair
  · rename_i same
    rw [← same, (lookup_eq_none_iff ms m.key).mpr unknown,
      (lookup_eq_none_iff ns m.key).mpr unknown']
    exact .none
  · exact pair

theorem Agree.equalMembers {ms ns : List (Member Value)} (agree : Agree (lookup ms) (lookup ns))
    (keys : ms.map Member.key = ns.map Member.key) (distinct : Distinct ms) :
    Value.equalMembers ms ns = true := by
  induction ms generalizing ns with
  | nil =>
    cases ns with
    | nil => rfl
    | cons n ns => cases keys
  | cons m ms ih =>
    cases ns with
    | nil => cases keys
    | cons n ns =>
      obtain ⟨fresh, distinct⟩ := (distinct_cons m ms).mp distinct
      injection keys with sameKey keys
      have here := agree m.key
      rw [lookup_cons, lookup_cons, if_pos rfl, if_pos sameKey.symm] at here
      have later : Agree (lookup ms) (lookup ns) := agree.tail sameKey fresh (keys ▸ fresh)
      cases here with
      | some equal =>
        rw [Value.equalMembers, equal, ih later keys distinct, decide_eq_true sameKey]
        rfl

end DocTree
