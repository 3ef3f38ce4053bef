import DocTree.Event.Write
import DocTree.Proofs.Built
import DocTree.Proofs.TotalOrder
import DocTree.Value.Debug
import DocTree.Value.Path

namespace DocTree

def Named (r : Value → Value → Prop) (m n : Member Value) : Prop :=
  m.key = n.key ∧ r m.value n.value

section Lists

variable {α β γ : Type} {r : α → β → Prop} {xs : List α} {ys : List β}

theorem map_eq_of_forall₂ {f : α → γ} {g : β → γ} (alike : List.Forall₂ (f · = g ·) xs ys) :
    xs.map f = ys.map g := by
  rw [← List.forall₂_eq_eq_eq, List.forall₂_map_left_iff, List.forall₂_map_right_iff]
  exact alike

theorem rel_cases {a : Option α} {b : Option β} (related : Option.Rel r a b) :
    (a = none ∧ b = none) ∨ ∃ x y, a = some x ∧ b = some y ∧ r x y := by
  cases related with
  | none => exact .inl ⟨rfl, rfl⟩
  | some related => exact .inr ⟨_, _, rfl, rfl, related⟩

theorem getElem?_rel (related : List.Forall₂ r xs ys) (i : Nat) :
    Option.Rel r xs[i]? ys[i]? := by
  induction related generalizing i with
  | nil => exact .none
  | cons head _ ih =>
    cases i with
    | zero => exact .some head
    | succ i => exact ih i

end Lists

namespace Value

mutual

/-- The second value is the first with references in place of some of its parts. -/
inductive Referred : Value → Value → Prop
  | leaf (t : Tag) (x : Leaf) : Referred (leaf t x) (leaf t x)
  | array (t : Tag) (home : Home) (capacity : Nat) {vs ws : List Value} :
      ReferredItems vs ws →
      Referred (array t ⟨home, capacity, vs⟩) (array t ⟨home, capacity, ws⟩)
  | object (t : Tag) (home : Home) (capacity : Nat) {ms ns : List (Member Value)} :
      ReferredMembers ms ns →
      Referred (object t ⟨home, capacity, ms⟩) (object t ⟨home, capacity, ns⟩)
  | ref (t : Tag) {v w : Value} : Referred v w → Referred (ref t v) (ref t w.follow)
  | replaced {v w : Value} : Referred v w → Referred v (constRef w)

inductive ReferredItems : List Value → List Value → Prop
  | nil : ReferredItems [] []
  | cons {v w : Value} {vs ws : List Value} :
      Referred v w → ReferredItems vs ws → ReferredItems (v :: vs) (w :: ws)

inductive ReferredMembers : List (Member Value) → List (Member Value) → Prop
  | nil : ReferredMembers [] []
  | cons {m n : Member Value} {ms ns : List (Member Value)} : m.key = n.key →
      Referred m.value n.value → ReferredMembers ms ns → ReferredMembers (m :: ms) (n :: ns)

end

/-- Two values of one shape whose parts are related. -/
inductive Shaped (r : Value → Value → Prop) : Value → Value → Prop
  | leaf (t : Tag) (x : Leaf) : Shaped r (leaf t x) (leaf t x)
  | array (t : Tag) (home : Home) (capacity : Nat) {vs ws : List Value} :
      List.Forall₂ r vs ws → Shaped r (array t ⟨home, capacity, vs⟩) (array t ⟨home, capacity, ws⟩)
  | object (t : Tag) (home : Home) (capacity : Nat) {ms ns : List (Member Value)} :
      List.Forall₂ (Named r) ms ns →
      Shaped r (object t ⟨home, capacity, ms⟩) (object t ⟨home, capacity, ns⟩)

/-- A relation that passes from parts to wholes and does not notice references. -/
structure LooksThrough (r : Value → Value → Prop) : Prop where
  shaped : ∀ {v w}, Shaped r v w → r v w
  ref : ∀ {t v w}, r v w → r (.ref t v) (.ref t w.follow)
  replaced : ∀ {v w}, r v w → r v (constRef w)

mutual

theorem LooksThrough.relates {r : Value → Value → Prop} (through : LooksThrough r) :
    ∀ {v w}, Referred v w → r v w
  | _, _, .leaf t x => through.shaped (.leaf t x)
  | _, _, .array t home capacity items =>
    through.shaped (.array t home capacity (through.relates_items items))
  | _, _, .object t home capacity members =>
    through.shaped (.object t home capacity (through.relates_members members))
  | _, _, .ref _ target => through.ref (through.relates target)
  | _, _, .replaced inner => through.replaced (through.relates inner)

theorem LooksThrough.relates_items {r : Value → Value → Prop} (through : LooksThrough r) :
    ∀ {vs ws}, ReferredItems vs ws → List.Forall₂ r vs ws
  | _, _, .nil => .nil
  | _, _, .cons head tail => .cons (through.relates head) (through.relates_items tail)

theorem LooksThrough.relates_members {r : Value → Value → Prop} (through : LooksThrough r) :
    ∀ {ms ns}, ReferredMembers ms ns → List.Forall₂ (Named r) ms ns
  | _, _, .nil => .nil
  | _, _, .cons sameKey head tail =>
    .cons ⟨sameKey, through.relates head⟩ (through.relates_members tail)

end

theorem ReferredItems.of_forall₂ {vs ws : List Value} (parts : List.Forall₂ Referred vs ws) :
    ReferredItems vs ws := by
  induction parts with
  | nil => exact .nil
  | cons head _ ih => exact .cons head ih

theorem ReferredMembers.of_forall₂ {ms ns : List (Member Value)}
    (parts : List.Forall₂ (Named Referred) ms ns) : ReferredMembers ms ns := by
  induction parts with
  | nil => exact .nil
  | cons head _ ih => exact .cons head.1 head.2 ih

theorem referred_looksThrough : LooksThrough Referred where
  shaped alike := by
    cases alike with
    | leaf t x => exact .leaf t x
    | array t home capacity items => exact .array t home capacity (.of_forall₂ items)
    | object t home capacity members => exact .object t home capacity (.of_forall₂ members)
  ref := .ref _
  replaced := .replaced

theorem resolve_follow (v : Value) : v.follow.resolve = v.resolve := by
  cases v <;> rfl

theorem Referred.resolve : ∀ {v w}, Referred v w → Shaped Referred v.resolve w.resolve
  | _, _, .leaf t x => .leaf t x
  | _, _, .array t home capacity items =>
    .array t home capacity (referred_looksThrough.relates_items items)
  | _, _, .object t home capacity members =>
    .object t home capacity (referred_looksThrough.relates_members members)
  | _, _, .ref t (w := w) target => by
    have ends : (Value.ref t w.follow).resolve = w.resolve := w.resolve_follow
    rw [ends]
    exact target.resolve
  | v, _, .replaced (w := w) inner => by
    have ends : (constRef w).resolve = w.resolve := w.resolve_follow
    rw [ends]
    exact inner.resolve

section Readings

variable {γ : Type} {f : Value → γ}

theorem reading_resolve (direct : ∀ t v, f (.ref t v) = f v) (v : Value) : f v.resolve = f v := by
  cases v with
  | ref t v => exact (reading_resolve direct v).trans (direct t v).symm
  | _ => rfl

theorem reading_follow (direct : ∀ t v, f (.ref t v) = f v) (v : Value) : f v.follow = f v := by
  rw [← reading_resolve direct, resolve_follow, reading_resolve direct]

/-- A reading that takes references for their targets, and of the parts what it reads there. -/
theorem LooksThrough.of_reading (direct : ∀ t v, f (.ref t v) = f v)
    (shaped : ∀ {v w}, Shaped (f · = f ·) v w → f v = f w) : LooksThrough (f · = f ·) where
  shaped := shaped
  ref same := by rw [direct, direct, reading_follow direct, same]
  replaced same := by rw [same, constRef, direct, reading_follow direct]

theorem Referred.read {v w : Value} (referred : Referred v w) (f : Value → γ)
    (r : γ → γ → Prop) (direct : ∀ t v, f (.ref t v) = f v)
    (shaped : ∀ {v w}, Shaped Referred v w → r (f v) (f w)) : r (f v) (f w) := by
  rw [← reading_resolve direct v, ← reading_resolve direct w]
  exact shaped referred.resolve

end Readings

theorem itemEvents_eq_map (vs : List Value) : itemEvents vs = vs.map toEvent := by
  induction vs with
  | nil => rfl
  | cons v vs ih => rw [itemEvents, List.map_cons, ih]

theorem memberEvents_eq_map (ms : List (Member Value)) :
    memberEvents ms = ms.map fun m => (.text m.key, m.value.toEvent) := by
  induction ms with
  | nil => rfl
  | cons m ms ih => rw [memberEvents, List.map_cons, ih]

theorem debugItems_eq_map (layout : DebugLayout) (vs : List Value) :
    debugItems layout vs = vs.map (debugText layout) := by
  induction vs with
  | nil => rfl
  | cons v vs ih => rw [debugItems, List.map_cons, ih]

theorem debugMembers_eq_map (layout : DebugLayout) (ms : List (Member Value)) :
    debugMembers layout ms =
      ms.map fun m => Text.quote m.key ++ ": " ++ m.value.debugText layout := by
  induction ms with
  | nil => rfl
  | cons m ms ih => rw [debugMembers, List.map_cons, ih]

theorem equals_looksThrough : LooksThrough (equals · ·) where
  shaped alike := by
    cases alike with
    | leaf t x => exact x.equals_self
    | array t home capacity items => exact equalItems_of_forall₂ items
    | object t home capacity members =>
      rw [equals_objects rfl rfl, equalMembers_of_forall₂ members, Bool.and_true]
      exact decide_eq_true members.length_eq
  ref {t v w} same := by
    rw [equals_ref_right, equals_resolve_right, resolve_follow, ← equals_resolve_right]
    exact same
  replaced {v w} same := by
    rwa [constRef, equals_ref_right, equals_resolve_right, resolve_follow, ← equals_resolve_right]

theorem toEvent_looksThrough : LooksThrough (toEvent · = toEvent ·) := by
  refine .of_reading (fun _ _ => rfl) fun alike => ?_
  cases alike with
  | leaf t x => rfl
  | array t home capacity items =>
    rw [toEvent, toEvent, itemEvents_eq_map, itemEvents_eq_map, items.length_eq,
      map_eq_of_forall₂ items]
  | object t home capacity members =>
    rw [toEvent, toEvent, memberEvents_eq_map, memberEvents_eq_map, members.length_eq]
    refine congrArg _ (map_eq_of_forall₂ (members.imp fun m n alike => ?_))
    rw [alike.1, alike.2]

def debugTexts (v : Value) (layout : DebugLayout) : String := v.debugText layout

theorem debugTexts_looksThrough : LooksThrough (debugTexts · = debugTexts ·) := by
  refine .of_reading (fun _ _ => rfl) fun alike => ?_
  funext layout
  cases alike with
  | leaf t x => rfl
  | array t home capacity items =>
    have texts := map_eq_of_forall₂ (items.imp fun v w same => congrFun same layout.inner)
    rw [debugTexts, debugTexts, debugText, debugText, debugItems_eq_map, debugItems_eq_map]
    exact congrArg (fun entries => "Array " ++ layout.list entries) texts
  | object t home capacity members =>
    rw [debugTexts, debugTexts, debugText, debugText, debugMembers_eq_map, debugMembers_eq_map]
    refine congrArg (fun entries => "Object " ++ layout.map entries)
      (map_eq_of_forall₂ (members.imp fun m n same => ?_))
    rw [same.1]
    exact congrArg _ (congrFun same.2 layout.inner)

end Value

theorem partitionPoint_nil {α : Type} (p : α → Bool) : partitionPoint p [] = 0 := by
  rw [partitionPoint]
  split
  · rfl
  · rename_i middle
    rw [List.drop_nil] at middle
    cases middle

theorem partitionPoint_of_middle {α : Type} (p : α → Bool) {xs : List α} {x : α} {rest : List α}
    (middle : xs.drop (xs.length / 2) = x :: rest) :
    partitionPoint p xs = if p x then xs.length / 2 + 1 + partitionPoint p rest
      else partitionPoint p (xs.take (xs.length / 2)) := by
  rw [partitionPoint]
  split
  · rename_i nothing
    rw [middle] at nothing
    cases nothing
  · rename_i here
    rw [middle] at here
    injection here with first others
    rw [first, others]

theorem partitionPoint_map {α β : Type} (p : β → Bool) (f : α → β) (xs : List α) :
    partitionPoint p (xs.map f) = partitionPoint (fun x => p (f x)) xs := by
  have mapped : ∀ xs : List α, (xs.map f).drop ((xs.map f).length / 2) =
      (xs.drop (xs.length / 2)).map f := by
    intro xs
    rw [List.length_map, List.map_drop]
  fun_induction partitionPoint (fun x => p (f x)) xs with
  | case1 xs nothing =>
    have empty : xs = [] := by
      have := congrArg List.length nothing
      rw [List.length_drop, List.length_nil] at this
      exact List.eq_nil_of_length_eq_zero (by omega)
    rw [empty, List.map_nil, partitionPoint_nil]
  | case2 xs x rest middle passes ih =>
    rw [partitionPoint_of_middle p ((mapped xs).trans (congrArg _ middle)), if_pos passes, ih,
      List.length_map]
  | case3 xs x rest middle fails ih =>
    rw [partitionPoint_of_middle p ((mapped xs).trans (congrArg _ middle)), if_neg fails,
      List.length_map, ← List.map_take, ih]

theorem Object.lowerBound_congr {α β : Type} {o : Object α} {p : Object β}
    (keys : o.members.map Member.key = p.members.map Member.key) (key : String) :
    o.lowerBound 0 key = p.lowerBound 0 key := by
  have search : ∀ {γ : Type} (q : Object γ),
      q.lowerBound 0 key = partitionPoint (· < key) (q.members.map Member.key) := by
    intro γ q
    rw [Ordered.lowerBound_zero, partitionPoint_map]
  rw [search, search, keys]

theorem Object.find?_congr {α β : Type} {o : Object α} {p : Object β}
    (keys : o.members.map Member.key = p.members.map Member.key) (key : String) :
    o.find? key = p.find? key := by
  have bound := lowerBound_congr keys key
  have here : ∀ pos, o.keyAt? pos = p.keyAt? pos := by
    intro pos
    rw [keyAt?, keyAt?, ← List.getElem?_map, ← List.getElem?_map, keys]
  unfold find?
  dsimp only
  rw [bound, here]

namespace Value

structure SameSequence (r : Value → Value → Prop) (s u : Sequence Value) : Prop where
  home : s.home = u.home
  capacity : s.capacity = u.capacity
  items : List.Forall₂ r s.items u.items

structure SameObject (r : Value → Value → Prop) (o p : Object Value) : Prop where
  home : o.home = p.home
  capacity : o.capacity = p.capacity
  members : List.Forall₂ (Named r) o.members p.members

namespace SameObject

variable {r : Value → Value → Prop} {o p : Object Value}

theorem find? (same : SameObject r o p) (key : String) : o.find? key = p.find? key :=
  Object.find?_congr (map_eq_of_forall₂ (same.members.imp fun _ _ alike => alike.1)) key

theorem get? (same : SameObject r o p) (key : String) :
    Option.Rel r (o.get? key) (p.get? key) := by
  unfold Object.get?
  rw [same.find?]
  cases p.find? key with
  | none => exact .none
  | some pos =>
    rw [Option.bind_some, Option.bind_some]
    obtain ⟨first, second⟩ | ⟨m, n, first, second, alike⟩ :=
      rel_cases (getElem?_rel same.members pos) <;> rw [first, second]
    · exact .none
    · exact .some alike.2

end SameObject

/-- Both fail alike, or both lead to related values. -/
inductive Together (r : Value → Value → Prop) : Except Error Value → Except Error Value → Prop
  | ok {v w : Value} : r v w → Together r (.ok v) (.ok w)
  | error (e : Error) : Together r (.error e) (.error e)

theorem Together.entry {α : Type} {r : Value → Value → Prop} {related : α → α → Prop}
    {f : α → Value} {xs ys : List α} (entries : List.Forall₂ related xs ys)
    (values : ∀ {x y}, related x y → r (f x) (f y)) (i : Nat) :
    Together r ((xs[i]?.map fun x => .ok (f x)).getD (.error (.outOfRange i xs.length)))
      ((ys[i]?.map fun y => .ok (f y)).getD (.error (.outOfRange i ys.length))) := by
  rw [entries.length_eq]
  obtain ⟨first, second⟩ | ⟨x, y, first, second, alike⟩ := rel_cases (getElem?_rel entries i) <;>
    rw [first, second]
  · exact .error _
  · exact .ok (values alike)

namespace Referred

variable {v w : Value}

theorem facts (referred : Referred v w) : v.facts = w.facts := by
  have kind : v.kind = w.kind :=
    referred.read Value.kind (· = ·) (fun _ _ => rfl) fun alike => by cases alike <;> rfl
  have leaf : v.leaf? = w.leaf? :=
    referred.read Value.leaf? (· = ·) (fun _ _ => rfl) fun alike => by cases alike <;> rfl
  unfold Value.facts asInt64? asUInt64? asDouble? asBool? asText? asBytes?
  rw [kind, leaf]

theorem length (referred : Referred v w) : v.length = w.length :=
  referred.read Value.length (· = ·) (fun _ _ => rfl) fun alike => by
    cases alike with
    | leaf t x => rfl
    | array t home capacity items => exact items.length_eq
    | object t home capacity members => exact members.length_eq

theorem capacity (referred : Referred v w) : v.capacity = w.capacity :=
  referred.read Value.capacity (· = ·) (fun _ _ => rfl) fun alike => by cases alike <;> rfl

theorem asSequence? (referred : Referred v w) :
    Option.Rel (SameSequence Referred) v.asSequence? w.asSequence? :=
  referred.read Value.asSequence? _ (fun _ _ => rfl) fun alike => by
    cases alike with
    | leaf t x => exact .none
    | array t home capacity items => exact .some ⟨rfl, rfl, items⟩
    | object t home capacity members => exact .none

theorem asObject? (referred : Referred v w) :
    Option.Rel (SameObject Referred) v.asObject? w.asObject? :=
  referred.read Value.asObject? _ (fun _ _ => rfl) fun alike => by
    cases alike with
    | leaf t x =>
      cases x with
      | emptyObject => exact .some ⟨rfl, rfl, .nil⟩
      | _ => exact .none
    | array t home capacity items => exact .none
    | object t home capacity members => exact .some ⟨rfl, rfl, members⟩

theorem containsKey (referred : Referred v w) (key : String) :
    v.containsKey key = w.containsKey key := by
  unfold Value.containsKey
  obtain ⟨first, second⟩ | ⟨o, p, first, second, same⟩ := rel_cases referred.asObject? <;>
    rw [first, second]
  rw [Option.any_some, Option.any_some, same.find?]

theorem at? (referred : Referred v w) (i : Nat) : Together Referred (v.at? i) (w.at? i) :=
  referred.read (Value.at? · i) _ (fun _ _ => rfl) fun alike => by
    cases alike with
    | leaf t x => cases x <;> exact .error _
    | array t home capacity items => exact .entry (f := id) items id i
    | object t home capacity members => exact .entry members (·.2) i

theorem foldlM_at? (referred : Referred v w) (positions : List Nat) :
    Together Referred (positions.foldlM Value.at? v) (positions.foldlM Value.at? w) := by
  induction positions generalizing v w with
  | nil => exact .ok referred
  | cons i is ih =>
    have here := referred.at? i
    rw [List.foldlM_cons, List.foldlM_cons]
    generalize v.at? i = a at here ⊢
    generalize w.at? i = b at here ⊢
    cases here with
    | ok inner => exact ih inner
    | error e => exact .error e

theorem get? (referred : Referred v w) (p : Step) :
    Option.Rel Referred (v.get? p) (w.get? p) := by
  unfold Value.get?
  cases p with
  | index i =>
    obtain ⟨first, second⟩ | ⟨s, u, first, second, same⟩ := rel_cases referred.asSequence? <;>
      dsimp only <;> rw [first, second]
    · exact .none
    · exact getElem?_rel same.items i
  | key k =>
    obtain ⟨first, second⟩ | ⟨o, q, first, second, same⟩ := rel_cases referred.asObject? <;>
      dsimp only <;> rw [first, second]
    · exact .none
    · exact same.get? k

theorem getPath? (referred : Referred v w) (path : List Step) :
    Option.Rel Referred (v.getPath? path) (w.getPath? path) := by
  induction path generalizing v w with
  | nil => exact .some referred
  | cons p ps ih =>
    unfold Value.getPath?
    obtain ⟨first, second⟩ | ⟨x, y, first, second, inner⟩ := rel_cases (referred.get? p) <;>
      rw [first, second]
    · exact .none
    · exact ih inner

theorem readPath (referred : Referred v w) (path : List Step) :
    Referred (v.readPath path) (w.readPath path) := by
  induction path generalizing v w with
  | nil => exact referred
  | cons p ps ih =>
    refine ih ?_
    unfold child
    obtain ⟨first, second⟩ | ⟨x, y, first, second, inner⟩ := rel_cases (referred.get? p) <;>
      rw [first, second]
    · exact .leaf _ _
    · exact inner

end Referred

/-- Nothing that reads the two values tells them apart, except that the parts it is given are again
only related. -/
structure ReadAlike (r : Value → Value → Prop) (v w : Value) : Prop where
  equal : v.equals w = true
  equals_left : ∀ u : Value, v.equals u = w.equals u
  equals_right : ∀ u : Value, u.equals v = u.equals w
  compare_left : ∀ u : Value, v.compare u = w.compare u
  compare_right : ∀ u : Value, u.compare v = u.compare w
  event : v.toEvent = w.toEvent
  debugText : ∀ layout, v.debugText layout = w.debugText layout
  facts : v.facts = w.facts
  length : v.length = w.length
  capacity : v.capacity = w.capacity
  containsKey : ∀ key, v.containsKey key = w.containsKey key
  asSequence? : Option.Rel (SameSequence r) v.asSequence? w.asSequence?
  asObject? : Option.Rel (SameObject r) v.asObject? w.asObject?
  at? : ∀ i, Together r (v.at? i) (w.at? i)
  positions : ∀ is : List Nat, Together r (is.foldlM Value.at? v) (is.foldlM Value.at? w)
  get? : ∀ p, Option.Rel r (v.get? p) (w.get? p)
  getPath? : ∀ path, Option.Rel r (v.getPath? path) (w.getPath? path)
  readPath : ∀ path, r (v.readPath path) (w.readPath path)

theorem Referred.readAlike {v w : Value} (referred : Referred v w) : ReadAlike Referred v w := by
  have order := compare_totalOrder
  have trans := order.transCmp
  have equal : v.equals w := equals_looksThrough.relates referred
  have level : v.compare w = .eq := (order.eq_iff v w).mpr equal
  have left : ∀ u : Value, v.compare u = w.compare u := fun u => Std.TransCmp.congr_left level
  have right : ∀ u : Value, u.compare v = u.compare w := fun u => Std.TransCmp.congr_right level
  exact {
    equal
    equals_left u := by rw [Bool.eq_iff_iff, ← order.eq_iff, ← order.eq_iff, left]
    equals_right u := by rw [Bool.eq_iff_iff, ← order.eq_iff, ← order.eq_iff, right]
    compare_left := left
    compare_right := right
    event := toEvent_looksThrough.relates referred
    debugText := congrFun (debugTexts_looksThrough.relates referred)
    facts := referred.facts
    length := referred.length
    capacity := referred.capacity
    containsKey := referred.containsKey
    asSequence? := referred.asSequence?
    asObject? := referred.asObject?
    at? := referred.at?
    positions := referred.foldlM_at?
    get? := referred.get?
    getPath? := referred.getPath?
    readPath := referred.readPath }

/-- A value is `w` or has it as a part, at any depth and behind references too. -/
inductive Part (w : Value) : Value → Prop
  | self : Part w w
  | item (t : Tag) {s : Sequence Value} {v : Value} :
      v ∈ s.items → Part w v → Part w (.array t s)
  | member (t : Tag) {o : Object Value} {m : Member Value} :
      m ∈ o.members → Part w m.value → Part w (.object t o)
  | target (t : Tag) {v : Value} : Part w v → Part w (.ref t v)

namespace WellFormed

variable {v w : Value}

theorem part (wellFormed : v.WellFormed) (part : Part w v) : w.WellFormed := by
  induction part with
  | self => exact wellFormed
  | item t isIn _ ih =>
    cases wellFormed with
    | array _ items => exact ih (items _ isIn)
  | member t isIn _ ih =>
    cases wellFormed with
    | object _ _ members => exact ih (members _ isIn)
  | target t _ ih =>
    cases wellFormed with
    | ref _ _ target => exact ih target

theorem referred_self (wellFormed : v.WellFormed) : Referred v v := by
  induction wellFormed with
  | leaf t x => exact .leaf t x
  | array t _ ih => exact .array t _ _ (.of_forall₂ (List.forall₂_same.mpr ih))
  | object t _ _ ih =>
    exact .object t _ _ (.of_forall₂ (List.forall₂_same.mpr fun m isIn => ⟨rfl, ih m isIn⟩))
  | @ref t u direct _ ih =>
    have ends := Referred.ref t ih
    rwa [follow_of_storage direct] at ends

end WellFormed

theorem forall_of_forall₂ {α β : Type} {r : α → β → Prop} {p : α → Prop} {q : β → Prop}
    {xs : List α} {ys : List β} (related : List.Forall₂ r xs ys)
    (carries : ∀ {x y}, r x y → p x → q y) (all : ∀ x ∈ xs, p x) : ∀ y ∈ ys, q y := by
  induction related with
  | nil => exact nofun
  | cons head _ ih =>
    obtain ⟨first, rest⟩ := List.forall_mem_cons.mp all
    exact List.forall_mem_cons.mpr ⟨carries head first, ih rest⟩

theorem wellFormed_looksThrough : LooksThrough fun v w => v.WellFormed → w.WellFormed where
  shaped alike wellFormed := by
    cases alike with
    | leaf t x => exact .leaf t x
    | array t home capacity items =>
      cases wellFormed with
      | array _ all => exact .array t (forall_of_forall₂ items id all)
    | object t home capacity members =>
      cases wellFormed with
      | object _ ascending all =>
        have keys := map_eq_of_forall₂ (members.imp fun _ _ alike => alike.1)
        exact .object t (AscendingBy.congr ascending keys.symm)
          (forall_of_forall₂ members (fun alike => alike.2) all)
  ref carries wellFormed := by
    cases wellFormed with
    | ref _ _ target => exact .ref _ (carries target).follow_storage (carries target).follow
  replaced carries wellFormed := (carries wellFormed).constRef

/-- References make no difference to a reader, wherever they are put. One step leads from them to
what they stand for: in what callers build no reference leads to a reference, nor does one when
references are put in, and a new one holds the end of the chain. -/
theorem references_transparent :
    (∀ v w, Referred v w → ReadAlike Referred v w) ∧
    (∀ v : Value, v.Built → Referred v v ∧ ∀ w, Referred v w → ∀ u, Part u w →
      u.follow = u.resolve ∧ u.follow.storage ≠ .reference) ∧
    ∀ v : Value, v.Built → constRef v = ref .plain v.resolve := by
  refine ⟨fun _ _ => Referred.readAlike, fun v built => ?_, fun v built => ?_⟩
  · refine ⟨built.wellFormed.referred_self, fun w referred u part => ?_⟩
    have inside := (wellFormed_looksThrough.relates referred built.wellFormed).part part
    exact ⟨inside.follow_eq_resolve, inside.follow_storage⟩
  · rw [constRef, built.wellFormed.follow_eq_resolve]

def plainSample : Value :=
  array .plain
    { items := [ofInt64 1, object .plain { capacity := 1, members := [⟨"a", ofText "b"⟩] }] }

theorem plainSample_built : plainSample.Built := by
  have members : Object.Built { capacity := 1, members := [⟨"a", ofText "b"⟩] } :=
    .read (e := .map none [(.text "a", .text "b")]) (by
      change Except.ok (Object.ofMembers .heap [⟨"a", ofText "b"⟩]) = _
      simp [Object.ofMembers, sortByKey, runHeads])
  refine .array _ (.filled (List.forall_mem_cons.mpr ⟨.leaf _ _, ?_⟩))
  exact List.forall_mem_singleton.mpr (.object _ members)

def referredSample : Value :=
  constRef (array .plain
    { items := [constRef (ofInt64 1),
        object .plain { capacity := 1, members := [⟨"a", constRef (constRef (ofText "b"))⟩] }] })

theorem sample_referred : Referred plainSample referredSample := by
  have text : Referred (ofText "b") (constRef (constRef (ofText "b"))) :=
    .replaced (.replaced (.leaf _ _))
  have member : ReferredMembers [⟨"a", ofText "b"⟩] [⟨"a", constRef (constRef (ofText "b"))⟩] :=
    .cons rfl text .nil
  exact .replaced (.array _ _ _
    (.cons (.replaced (.leaf _ _)) (.cons (.object _ _ _ member) .nil)))

theorem references_transparent_sample :
    plainSample.Built ∧ Referred plainSample referredSample ∧
      ReadAlike Referred plainSample referredSample ∧
      (∀ u, Part u referredSample → u.follow = u.resolve ∧ u.follow.storage ≠ .reference) ∧
      constRef plainSample = ref .plain plainSample.resolve :=
  ⟨plainSample_built, sample_referred,
    references_transparent.1 plainSample referredSample sample_referred,
    (references_transparent.2.1 plainSample plainSample_built).2 referredSample sample_referred,
    references_transparent.2.2 plainSample plainSample_built⟩

end Value

end DocTree
