import Mathlib.Data.List.Forall2
import DocTree.InsertionObject.Basic
import DocTree.Proofs.Equality
import DocTree.Proofs.NumberOrder

namespace DocTree

/-- Two steps and the way they make together: if neither leads down, the way does not, and if the
way is level then so are both steps. -/
def Chained (first second whole : Ordering) : Prop :=
  first.isLE → second.isLE → whole.isLE ∧ (whole = .eq → first = .eq ∧ second = .eq)

namespace Chained

theorem of_transCmp {α : Type} (cmp : α → α → Ordering) [Std.TransCmp cmp] (x y z : α) :
    Chained (cmp x y) (cmp y z) (cmp x z) := by
  intro up up'
  refine ⟨Std.TransCmp.isLE_trans up up', fun level => ?_⟩
  have back : (cmp z x).isLE := by
    have turned : cmp z x = (cmp x z).swap := Std.OrientedCmp.eq_swap
    rw [turned, level]
    rfl
  exact ⟨Std.OrientedCmp.isLE_antisymm up (Std.TransCmp.isLE_trans up' back),
    Std.OrientedCmp.isLE_antisymm up' (Std.TransCmp.isLE_trans back up)⟩

theorem level : Chained .eq .eq .eq := fun _ _ => ⟨rfl, fun _ => ⟨rfl, rfl⟩⟩

theorem to_lt {first second : Ordering} : Chained first second .lt := fun _ _ => ⟨rfl, nofun⟩

theorem from_gt {second whole : Ordering} : Chained .gt second whole := nofun

theorem via_gt {first whole : Ordering} : Chained first .gt whole := nofun

theorem lex {a b c a' b' c' : Ordering} (now : Chained a b c)
    (later : a = .eq → b = .eq → Chained a' b' c') :
    Chained (a.then a') (b.then b') (c.then c') := by
  intro up up'
  have first : a.isLE := (Ordering.isLE_then_iff_and.mp up).1
  have second : b.isLE := (Ordering.isLE_then_iff_and.mp up').1
  obtain ⟨le, level⟩ := now first second
  cases c with
  | lt => exact ⟨rfl, nofun⟩
  | gt => cases le
  | eq =>
    obtain ⟨rfl, rfl⟩ := level rfl
    exact later rfl rfl up up'

end Chained

/-- One value in an order: seen from either side it is the same, what is level with it is equal to
it, and ways that start from it can be joined. -/
structure Settled {α : Type} (cmp : α → α → Ordering) (same : α → α → Prop) (x : α) : Prop where
  swap : ∀ y, (cmp x y).swap = cmp y x
  level : ∀ y, cmp x y = .eq → same x y
  chained : ∀ y z, Chained (cmp x y) (cmp y z) (cmp x z)

namespace Settled

variable {α β : Type} {cmp : α → α → Ordering} {same : α → α → Prop} {x : α}

theorem of_transCmp [Std.TransCmp cmp] (level : ∀ y, cmp x y = .eq → same x y) :
    Settled cmp same x where
  swap _ := (Std.OrientedCmp.eq_swap).symm
  level := level
  chained := Chained.of_transCmp cmp x

theorem of_transOrd {α : Type} [Ord α] [Std.TransOrd α] [Std.LawfulEqOrd α] (x : α) :
    Settled Ord.compare (· = ·) x :=
  of_transCmp fun _ => Std.LawfulEqCmp.eq_of_compare

/-- An order by rank whose comparisons within a rank look at a part only. -/
theorem of_view {cmp' : β → β → Ordering} {same' : β → β → Prop} {a : β} (rank : α → Nat)
    (ranked : ∀ y z, cmp y z = (compare (rank y) (rank z)).then (cmp y z)) (view : α → Option β)
    (here : view x = some a) (seen : ∀ y, rank x = rank y → ∃ b, view y = some b)
    (order : ∀ {y z b c}, view y = some b → view z = some c → cmp y z = cmp' b c)
    (equal : ∀ {y b}, view y = some b → same' a b → same x y) (part : Settled cmp' same' a) :
    Settled cmp same x where
  swap y := by
    by_cases sameRank : rank x = rank y
    · obtain ⟨b, there⟩ := seen y sameRank
      rw [order here there, order there here, part.swap]
    · rw [ranked x y, ranked y x, Ordering.swap_then, ← Std.OrientedOrd.eq_swap]
      rcases Nat.lt_or_gt_of_ne sameRank with less | greater
      · rw [Nat.compare_eq_gt.mpr less]
        rfl
      · rw [Nat.compare_eq_lt.mpr greater]
        rfl
  level y isLevel := by
    rw [ranked, Ordering.then_eq_eq] at isLevel
    obtain ⟨b, there⟩ := seen y (Nat.compare_eq_eq.mp isLevel.1)
    rw [order here there] at isLevel
    exact equal there (part.level b isLevel.2)
  chained y z := by
    rw [ranked x y, ranked y z, ranked x z]
    refine (Chained.of_transCmp _ _ _ _).lex fun first second => ?_
    have sameRank := Nat.compare_eq_eq.mp first
    obtain ⟨b, there⟩ := seen y sameRank
    obtain ⟨c, beyond⟩ := seen z (sameRank.trans (Nat.compare_eq_eq.mp second))
    rw [order here there, order there beyond, order here beyond]
    exact part.chained b c

theorem on {f : β → α} {x : β} (part : Settled cmp same (f x)) :
    Settled (fun y z => cmp (f y) (f z)) (fun y z => same (f y) (f z)) x where
  swap y := part.swap (f y)
  level y := part.level (f y)
  chained y z := part.chained (f y) (f z)

theorem weaken {same' : α → α → Prop} (settled : Settled cmp same x)
    (weaker : ∀ y, same x y → same' x y) : Settled cmp same' x :=
  { settled with level := fun y isLevel => weaker y (settled.level y isLevel) }

theorem lex {γ : Type} {f : γ → α} {g : γ → β} {cmp' : β → β → Ordering} {same' : β → β → Prop}
    {x : γ} (first : Settled cmp same (f x)) (second : Settled cmp' same' (g x)) :
    Settled (fun y z => (cmp (f y) (f z)).then (cmp' (g y) (g z)))
      (fun y z => same (f y) (f z) ∧ same' (g y) (g z)) x where
  swap y := by rw [Ordering.swap_then, first.swap, second.swap]
  level y isLevel := by
    rw [Ordering.then_eq_eq] at isLevel
    exact ⟨first.level _ isLevel.1, second.level _ isLevel.2⟩
  chained y z := (first.chained _ _).lex fun _ _ => second.chained _ _

theorem list {xs : List α} (each : ∀ x ∈ xs, Settled cmp same x) :
    Settled (compareLists cmp) (List.Forall₂ same) xs := by
  induction xs with
  | nil =>
    refine ⟨fun ys => ?_, fun ys isLevel => ?_, fun ys zs => ?_⟩
    · cases ys <;> rfl
    · cases ys with
      | nil => exact .nil
      | cons y ys => cases isLevel
    · cases ys <;> cases zs
      exacts [.level, .to_lt, .via_gt, .to_lt]
  | cons x xs ih =>
    have head : Settled cmp same x := each x List.mem_cons_self
    have tail := ih fun y isIn => each y (List.mem_cons_of_mem x isIn)
    refine ⟨fun ys => ?_, fun ys isLevel => ?_, fun ys zs => ?_⟩
    · cases ys with
      | nil => rfl
      | cons y ys => rw [compareLists, compareLists, Ordering.swap_then, head.swap, tail.swap]
    · cases ys with
      | nil => cases isLevel
      | cons y ys =>
        rw [compareLists, Ordering.then_eq_eq] at isLevel
        exact .cons (head.level y isLevel.1) (tail.level ys isLevel.2)
    · cases ys with
      | nil => exact .from_gt
      | cons y ys =>
        cases zs with
        | nil => exact .via_gt
        | cons z zs => exact (head.chained y z).lex fun _ _ => tail.chained ys zs

end Settled

namespace Exact

def ratio : Exact → ℚ
  | finite q => q
  | _ => 0

theorem compare_eq (x y : Exact) :
    x.compare y = (Ord.compare x.rank y.rank).then (Ord.compare x.ratio y.ratio) := by
  cases x <;> cases y <;> rfl

instance : Std.TransCmp compare where
  eq_swap {x y} := (compare_swap y x).symm
  isLE_trans {x y z} up up' := by
    have way : Chained (x.compare y) (y.compare z) (x.compare z) := by
      rw [compare_eq, compare_eq, compare_eq]
      exact (Chained.of_transCmp _ _ _ _).lex fun _ _ => Chained.of_transCmp _ _ _ _
    exact (way up up').1

end Exact

theorem Number.compare_settled (x : Number) : Settled compare (compare · · = .eq) x := by
  have trans : Std.TransCmp Number.compare := {
    eq_swap := fun {x y} => (compare_swap y x).symm
    isLE_trans := fun {x y z} => by
      rw [compare_eq_exact, compare_eq_exact, compare_eq_exact]
      exact Std.TransCmp.isLE_trans }
  exact .of_transCmp fun _ => id

theorem compareKeys_settled (key : String) : Settled compareKeys (· = ·) key := .of_transOrd key

namespace Leaf

def order (x y : Leaf) : Ordering :=
  (Ord.compare x.kind.rank y.kind.rank).then (x.compareSameRank y)

theorem order_ranked (x y : Leaf) :
    x.order y = (Ord.compare x.kind.rank y.kind.rank).then (x.order y) := by
  unfold order
  rw [← Ordering.then_assoc]
  cases Ord.compare x.kind.rank y.kind.rank <;> rfl

theorem number?_of_rank {x : Leaf} (isNumber : x.kind.rank = 2) : ∃ n, x.number? = some n := by
  cases x <;> first | exact ⟨_, rfl⟩ | cases isNumber

theorem rank_of_number? {x : Leaf} {n : Number} (number : x.number? = some n) :
    x.kind.rank = 2 := by
  cases x <;> first | rfl | cases number

theorem order_of_numbers {x y : Leaf} {m n : Number} (first : x.number? = some m)
    (second : y.number? = some n) : x.order y = m.compare n := by
  rw [order, rank_of_number? first, rank_of_number? second]
  cases x <;> cases first <;> cases y <;> cases second <;> rfl

theorem number_settled {x : Leaf} {m : Number} (number : x.number? = some m) :
    Settled order (equals · ·) x := by
  refine .of_view _ order_ranked number? number ?_ order_of_numbers ?_ m.compare_settled
  · intro y sameRank
    exact number?_of_rank (sameRank.symm.trans (rank_of_number? number))
  · intro y n there level
    have both : x.equals y = decide (m.compare n = .eq) := by
      unfold equals
      rw [number, there]
    exact both.trans (decide_eq_true level)

def boolean? : Leaf → Option Bool
  | boolean b => some b
  | _ => none

def text? : Leaf → Option String
  | text _ s => some s
  | _ => none

def bytes? : Leaf → Option (List UInt8)
  | bytes _ b => some b
  | _ => none

theorem boolean_settled (b : Bool) : Settled order (equals · ·) (boolean b) := by
  refine .of_view _ order_ranked boolean? rfl ?_ ?_ ?_ (Settled.of_transOrd b)
  · intro y sameRank
    cases y <;> first | exact ⟨_, rfl⟩ | cases sameRank
  · intro y z c d there beyond
    cases y <;> cases there
    cases z <;> cases beyond
    rfl
  · intro y c there same
    cases y <;> cases there
    exact decide_eq_true same

theorem text_settled (home : Home) (s : String) : Settled order (equals · ·) (text home s) := by
  refine .of_view _ order_ranked text? rfl ?_ ?_ ?_ (compareKeys_settled s)
  · intro y sameRank
    cases y <;> first | exact ⟨_, rfl⟩ | cases sameRank
  · intro y z c d there beyond
    cases y <;> cases there
    cases z <;> cases beyond
    rfl
  · intro y c there same
    cases y <;> cases there
    exact decide_eq_true same

theorem bytes_settled (home : Home) (b : List UInt8) :
    Settled order (equals · ·) (bytes home b) := by
  have byte : ∀ x : UInt8, Settled (fun x y => Ord.compare x.toNat y.toNat) (· = ·) x :=
    fun x => (Settled.of_transOrd x.toNat).on.weaken fun _ => UInt8.toNat.inj
  refine .of_view _ order_ranked bytes? rfl ?_ ?_ ?_ (Settled.list fun x _ => byte x)
  · intro y sameRank
    cases y <;> first | exact ⟨_, rfl⟩ | cases sameRank
  · intro y z c d there beyond
    cases y <;> cases there
    cases z <;> cases beyond
    rfl
  · intro y c there same
    rw [List.forall₂_eq_eq_eq] at same
    cases y <;> cases there
    exact decide_eq_true same

theorem alone_settled {x : Leaf} (alone : ∀ y, x.kind.rank = y.kind.rank → y = x) :
    Settled order (equals · ·) x := by
  -- The rank says all there is to say, so within it nothing is left to compare.
  have alike : ∀ {y c}, Option.guard (x.kind.rank = ·.kind.rank) y = some c → y = x :=
    fun there => alone _ (of_decide_eq_true (Option.guard_eq_some_iff.mp there).2)
  have level : Settled (fun _ _ : Leaf => .eq) (fun _ _ => True) x :=
    ⟨fun _ => rfl, fun _ _ => trivial, fun _ _ => .level⟩
  have here : Option.guard (x.kind.rank = ·.kind.rank) x = some x :=
    Option.guard_eq_some_iff.mpr ⟨rfl, decide_eq_true rfl⟩
  refine .of_view _ order_ranked _ here ?_ ?_ ?_ level
  · intro y sameRank
    exact ⟨y, Option.guard_eq_some_iff.mpr ⟨rfl, decide_eq_true sameRank⟩⟩
  · intro y z c d there beyond
    rw [alike there, alike beyond]
    exact compare_of_equals x.equals_self
  · intro y c there _
    rw [alike there]
    exact x.equals_self

theorem order_settled (x : Leaf) : Settled order (equals · ·) x := by
  cases x with
  | null => exact alone_settled fun y sameRank => by cases y <;> first | rfl | cases sameRank
  | boolean b => exact boolean_settled b
  | int64 n => exact number_settled rfl
  | uint64 n => exact number_settled rfl
  | half h => exact number_settled rfl
  | double x => exact number_settled rfl
  | text home s => exact text_settled home s
  | bytes home b => exact bytes_settled home b
  | emptyObject =>
    exact alone_settled fun y sameRank => by cases y <;> first | rfl | cases sameRank

end Leaf

namespace Value

/-- A property that containers and references take from what is in them. -/
structure Inherited (P : Value → Prop) : Prop where
  leaf : ∀ t x, P (leaf t x)
  array : ∀ t s, (∀ v ∈ s.items, P v) → P (array t s)
  object : ∀ t o, (∀ m ∈ o.members, P m.value) → P (object t o)
  ref : ∀ t v, P v → P (ref t v)

mutual

theorem Inherited.holds {P : Value → Prop} (from_parts : Inherited P) : ∀ v, P v
  | .leaf t x => from_parts.leaf t x
  | .array t s => from_parts.array t s (from_parts.holds_items s.items)
  | .object t o => from_parts.object t o (from_parts.holds_members o.members)
  | .ref t v => from_parts.ref t v (from_parts.holds v)

theorem Inherited.holds_items {P : Value → Prop} (from_parts : Inherited P) :
    ∀ vs : List Value, ∀ v ∈ vs, P v
  | [] => nofun
  | v :: vs => List.forall_mem_cons.mpr ⟨from_parts.holds v, from_parts.holds_items vs⟩

theorem Inherited.holds_members {P : Value → Prop} (from_parts : Inherited P) :
    ∀ ms : List (Member Value), ∀ m ∈ ms, P m.value
  | [] => nofun
  | m :: ms => List.forall_mem_cons.mpr ⟨from_parts.holds m.value, from_parts.holds_members ms⟩

end

theorem compareItems_eq (vs ws : List Value) : compareItems vs ws = compareLists compare vs ws := by
  induction vs generalizing ws with
  | nil => cases ws <;> rfl
  | cons v vs ih =>
    cases ws with
    | nil => rfl
    | cons w ws => rw [compareItems, compareLists, ih]

theorem compareMembers_eq (ms ns : List (Member Value)) :
    compareMembers ms ns = compareLists Member.compare ms ns := by
  induction ms generalizing ns with
  | nil => cases ns <;> rfl
  | cons m ms ih =>
    cases ns with
    | nil => rfl
    | cons n ns =>
      rw [compareMembers, compareLists, ih]
      rfl

theorem equalItems_of_forall₂ {vs ws : List Value} (equal : List.Forall₂ (equals · ·) vs ws) :
    equalItems vs ws = true := by
  induction equal with
  | nil => rfl
  | cons head _ ih => rw [equalItems, head, ih]; rfl

theorem equalMembers_of_forall₂ {ms ns : List (Member Value)}
    (equal : List.Forall₂ (fun m n => m.key = n.key ∧ m.value.equals n.value) ms ns) :
    equalMembers ms ns = true := by
  induction equal with
  | nil => rfl
  | cons head _ ih => rw [equalMembers, head.1, head.2, ih, decide_eq_true rfl]; rfl

theorem kind_resolve (v : Value) : v.resolve.kind = v.kind := by
  obtain ⟨t, x, target⟩ | ⟨t, s, target⟩ | ⟨t, o, target⟩ := v.resolve_cases <;>
    rw [kind, kind, target] <;> rfl

theorem compare_resolve_left (v w : Value) : v.resolve.compare w = v.compare w := by
  cases v with
  | ref t v => exact compare_resolve_left v w
  | _ => rfl

theorem compare_ref_right (v : Value) (t : Tag) (w : Value) :
    v.compare (ref t w) = v.compare w := by
  cases v with
  | ref u v => exact compare_ref_right v t w
  | _ => rfl

theorem compare_resolve_right (v w : Value) : v.compare w.resolve = v.compare w := by
  cases w with
  | ref t w => exact (compare_resolve_right v w).trans (compare_ref_right v t w).symm
  | _ => rfl

theorem compare_ranked (v w : Value) :
    v.compare w = (Ord.compare v.kind.rank w.kind.rank).then (v.compare w) := by
  have again : ∀ a b : Ordering, a.then b = a.then (a.then b) := by
    intro a b
    cases a <;> rfl
  rw [← compare_resolve_left, ← kind_resolve v]
  obtain ⟨t, x, target⟩ | ⟨t, s, target⟩ | ⟨t, o, target⟩ := v.resolve_cases <;>
    rw [target, compare] <;> exact again _ _

theorem leaf?_of_rank {v : Value} (low : v.kind.rank < 5) : ∃ x, v.leaf? = some x := by
  unfold kind at low
  unfold leaf?
  obtain ⟨t, x, target⟩ | ⟨t, s, target⟩ | ⟨t, o, target⟩ := v.resolve_cases <;>
    rw [target] at low ⊢
  · exact ⟨x, rfl⟩
  · exact absurd low (by nofun)
  · exact absurd low (by nofun)

theorem asSequence?_of_rank {v : Value} (isArray : v.kind.rank = 5) :
    ∃ s, v.asSequence? = some s := by
  unfold kind at isArray
  unfold asSequence?
  obtain ⟨t, x, target⟩ | ⟨t, s, target⟩ | ⟨t, o, target⟩ := v.resolve_cases <;>
    rw [target] at isArray ⊢
  · cases x <;> cases isArray
  · exact ⟨s, rfl⟩
  · cases isArray

theorem asObject?_of_rank {v : Value} (isObject : v.kind.rank = 6) :
    ∃ o, v.asObject? = some o := by
  unfold kind at isObject
  unfold asObject?
  obtain ⟨t, x, target⟩ | ⟨t, s, target⟩ | ⟨t, o, target⟩ := v.resolve_cases <;>
    rw [target] at isObject ⊢
  · cases x <;> first | exact ⟨_, rfl⟩ | cases isObject
  · cases isObject
  · exact ⟨o, rfl⟩

theorem resolve_of_leaf? {v : Value} {x : Leaf} (held : v.leaf? = some x) :
    ∃ t, v.resolve = leaf t x := by
  unfold leaf? at held
  obtain ⟨t, x, target⟩ | ⟨t, s, target⟩ | ⟨t, o, target⟩ := v.resolve_cases <;>
    rw [target] at held <;> cases held
  exact ⟨t, target⟩

theorem resolve_of_asSequence? {v : Value} {s : Sequence Value} (held : v.asSequence? = some s) :
    ∃ t, v.resolve = array t s := by
  unfold asSequence? at held
  obtain ⟨t, x, target⟩ | ⟨t, s, target⟩ | ⟨t, o, target⟩ := v.resolve_cases <;>
    rw [target] at held <;> cases held
  exact ⟨t, target⟩

theorem resolve_of_asObject? {v : Value} {o : Object Value} (held : v.asObject? = some o) :
    (∃ t, v.resolve = object t o) ∨ (∃ t, v.resolve = leaf t .emptyObject) ∧ o = {} := by
  unfold asObject? at held
  obtain ⟨t, x, target⟩ | ⟨t, s, target⟩ | ⟨t, p, target⟩ := v.resolve_cases <;>
    rw [target] at held
  · cases x <;> cases held
    exact .inr ⟨⟨t, target⟩, rfl⟩
  · cases held
  · cases held
    exact .inl ⟨t, target⟩

theorem compare_leaves {v w : Value} {x y : Leaf} (first : v.leaf? = some x)
    (second : w.leaf? = some y) : v.compare w = x.order y := by
  obtain ⟨t, target⟩ := resolve_of_leaf? first
  obtain ⟨u, target'⟩ := resolve_of_leaf? second
  rw [← compare_resolve_left, ← compare_resolve_right, target, target']
  rfl

theorem compare_sequences {v w : Value} {s r : Sequence Value} (first : v.asSequence? = some s)
    (second : w.asSequence? = some r) : v.compare w = compareLists compare s.items r.items := by
  obtain ⟨t, target⟩ := resolve_of_asSequence? first
  obtain ⟨u, target'⟩ := resolve_of_asSequence? second
  rw [← compare_resolve_left, ← compare_resolve_right, target, target', ← compareItems_eq]
  rfl

theorem compare_objects {v w : Value} {o p : Object Value} (first : v.asObject? = some o)
    (second : w.asObject? = some p) :
    v.compare w = compareLists Member.compare o.members p.members := by
  rw [← compare_resolve_left, ← compare_resolve_right, ← compareMembers_eq]
  obtain ⟨t, target⟩ | ⟨⟨t, target⟩, rfl⟩ := resolve_of_asObject? first <;>
    obtain ⟨u, target'⟩ | ⟨⟨u, target'⟩, rfl⟩ := resolve_of_asObject? second <;>
    rw [target, target']
  · rfl
  · rfl
  · obtain ⟨home, capacity, members⟩ := p
    cases members <;> rfl
  · rfl

theorem leaf_settled {v : Value} {x : Leaf} (held : v.leaf? = some x) (proper : x ≠ .emptyObject) :
    Settled compare (equals · ·) v := by
  obtain ⟨t, target⟩ := resolve_of_leaf? held
  have rank : v.kind.rank < 5 := by
    rw [← kind_resolve, target]
    cases x <;> first | exact absurd rfl proper | exact Nat.le_of_ble_eq_true rfl
  refine .of_view _ compare_ranked leaf? held ?_ compare_leaves ?_ x.order_settled
  · intro w sameRank
    exact leaf?_of_rank (sameRank ▸ rank)
  · intro w y there same
    obtain ⟨u, target'⟩ := resolve_of_leaf? there
    rw [equals_resolve_left, equals_resolve_right, target, target']
    exact same

theorem sequence_settled {v : Value} {s : Sequence Value} (held : v.asSequence? = some s)
    (items : ∀ x ∈ s.items, Settled compare (equals · ·) x) :
    Settled compare (equals · ·) v := by
  obtain ⟨t, target⟩ := resolve_of_asSequence? held
  have rank : v.kind.rank = 5 := by
    rw [← kind_resolve, target]
    rfl
  refine .of_view _ compare_ranked asSequence? held ?_ compare_sequences ?_ (Settled.list items).on
  · intro w sameRank
    exact asSequence?_of_rank (sameRank.symm.trans rank)
  · intro w r there same
    obtain ⟨u, target'⟩ := resolve_of_asSequence? there
    rw [equals_resolve_left, equals_resolve_right, target, target']
    exact equalItems_of_forall₂ same

theorem member_settled {m : Member Value} (value : Settled compare (equals · ·) m.value) :
    Settled Member.compare (fun m n => m.key = n.key ∧ m.value.equals n.value) m :=
  .lex (compareKeys_settled m.key) value

theorem equals_objects {v w : Value} {o p : Object Value} (first : v.asObject? = some o)
    (second : w.asObject? = some p) :
    v.equals w = (decide (o.length = p.length) && equalMembers o.members p.members) := by
  rw [equals_resolve_left, equals_resolve_right]
  obtain ⟨t, target⟩ | ⟨⟨t, target⟩, rfl⟩ := resolve_of_asObject? first <;>
    obtain ⟨u, target'⟩ | ⟨⟨u, target'⟩, rfl⟩ := resolve_of_asObject? second <;>
    rw [target, target']
  · rfl
  · rfl
  · obtain ⟨home, capacity, members⟩ := p
    cases members <;> rfl
  · rfl

theorem object_settled {v : Value} {o : Object Value} (held : v.asObject? = some o)
    (members : ∀ m ∈ o.members, Settled compare (equals · ·) m.value) :
    Settled compare (equals · ·) v := by
  have rank : v.kind.rank = 6 := by
    obtain ⟨t, target⟩ | ⟨⟨t, target⟩, _⟩ := resolve_of_asObject? held <;>
      rw [← kind_resolve, target] <;> rfl
  have each := fun m isIn => member_settled (members m isIn)
  refine .of_view _ compare_ranked asObject? held ?_ compare_objects ?_ (Settled.list each).on
  · intro w sameRank
    exact asObject?_of_rank (sameRank.symm.trans rank)
  · intro w p there same
    rw [equals_objects held there, equalMembers_of_forall₂ same, Bool.and_true]
    exact decide_eq_true same.length_eq

theorem compare_settled : ∀ v, Settled compare (equals · ·) v := Inherited.holds {
  leaf t x := by
    by_cases empty : x = .emptyObject
    · rw [empty]
      exact object_settled rfl (nofun : ∀ m ∈ ([] : List (Member Value)), _)
    · exact leaf_settled rfl empty
  array t s items := sequence_settled rfl items
  object t o members := object_settled rfl members
  ref t v settled :=
    { swap := fun w => (settled.swap w).trans (compare_ref_right w t v).symm
      level := settled.level
      chained := settled.chained } }

end Value

/-- A comparison that orders everything in one line and levels exactly what is equal. -/
structure TotalOrder {α : Type} (cmp : α → α → Ordering) (eq : α → α → Bool) : Prop where
  self : ∀ a, cmp a a = .eq
  swap : ∀ a b, cmp b a = (cmp a b).swap
  trans : ∀ a b c, (cmp a b).isLE → (cmp b c).isLE → (cmp a c).isLE
  eq_iff : ∀ a b, cmp a b = .eq ↔ eq a b

namespace TotalOrder

variable {α β : Type} {cmp : α → α → Ordering} {eq : α → α → Bool}

theorem of_settled (settled : ∀ x, Settled cmp (eq · ·) x) (level : ∀ x y, eq x y → cmp x y = .eq)
    (self : ∀ x, eq x x) : TotalOrder cmp eq where
  self x := level x x (self x)
  swap x y := ((settled x).swap y).symm
  trans x y z up up' := ((settled x).chained y z up up').1
  eq_iff x y := ⟨(settled x).level y, level x y⟩

theorem transCmp (order : TotalOrder cmp eq) : Std.TransCmp cmp where
  eq_swap {a b} := order.swap b a
  isLE_trans := order.trans _ _ _

theorem on (order : TotalOrder cmp eq) (f : β → α) :
    TotalOrder (fun x y => cmp (f x) (f y)) fun x y => eq (f x) (f y) where
  self x := order.self (f x)
  swap x y := order.swap (f x) (f y)
  trans x y z := order.trans (f x) (f y) (f z)
  eq_iff x y := order.eq_iff (f x) (f y)

end TotalOrder

theorem Value.compare_totalOrder : TotalOrder Value.compare Value.equals :=
  .of_settled compare_settled (fun _ _ => compare_of_equals) equals_self

theorem Member.compare_totalOrder : TotalOrder Member.compare Member.equals := by
  have settled : ∀ m, Settled Member.compare (equals · ·) m := fun m =>
    (Value.member_settled m.value.compare_settled).weaken fun n same => by
      rw [equals, same.1, same.2, decide_eq_true rfl]
      rfl
  have level : ∀ m n : Member Value, m.equals n → m.compare n = .eq := by
    intro m n equal
    obtain ⟨sameKey, sameValue⟩ := (Bool.and_eq_true _ _).mp equal
    rw [compare, of_decide_eq_true sameKey, compareKeys_self, Value.compare_of_equals sameValue]
    rfl
  refine .of_settled settled level fun m => ?_
  rw [equals, m.value.equals_self, decide_eq_true rfl]
  rfl

theorem Sequence.compare_totalOrder : TotalOrder Sequence.compare Sequence.equals := by
  have order : TotalOrder Value.compareItems Value.equalItems := by
    refine .of_settled (fun vs => ?_) (fun _ _ => Value.compareItems_of_equal)
      Value.equalItems_self
    have lists := Settled.list fun v (_ : v ∈ vs) => v.compare_settled
    rw [← funext fun vs => funext (Value.compareItems_eq vs)] at lists
    exact lists.weaken fun _ => Value.equalItems_of_forall₂
  exact order.on Sequence.items

theorem compareByKey_totalOrder : TotalOrder compareByKey equalByKey := by
  refine .of_settled (fun ms => ?_) (fun ms ns equal => ?_) fun ms => ?_
  · have lists := Settled.list fun m (_ : m ∈ ms) => Value.member_settled m.value.compare_settled
    rw [← funext fun ms => funext (Value.compareMembers_eq ms)] at lists
    refine lists.weaken fun ns same => ?_
    rw [equalByKey, Value.equalMembers_of_forall₂ same, Bool.and_true]
    exact decide_eq_true same.length_eq
  · exact Value.compareMembers_of_equal ((Bool.and_eq_true _ _).mp equal).2
  · rw [equalByKey, Value.equalMembers_self, decide_eq_true rfl]
    rfl

/-- Values, members, arrays and both kinds of objects are totally ordered, in agreement with their
equality. -/
theorem total_orders :
    TotalOrder Value.compare Value.equals ∧
    TotalOrder Member.compare Member.equals ∧
    TotalOrder Sequence.compare Sequence.equals ∧
    TotalOrder (fun o p : Object Value => compareByKey o.byKey p.byKey)
      (fun o p => equalByKey o.byKey p.byKey) ∧
    TotalOrder (fun o p : InsertionObject Value => compareByKey o.byKey p.byKey)
      (fun o p => equalByKey o.byKey p.byKey) :=
  ⟨Value.compare_totalOrder, Member.compare_totalOrder, Sequence.compare_totalOrder,
    compareByKey_totalOrder.on Object.byKey, compareByKey_totalOrder.on InsertionObject.byKey⟩

end DocTree
