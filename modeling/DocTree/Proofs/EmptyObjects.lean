import DocTree.Proofs.Copies
import DocTree.Proofs.References

/-!
Two ways to hold an object without members: the empty object, which is a leaf and needs no room,
and an object of the heap. Readers are told the same of both, at any depth.
-/

namespace DocTree

structure Sequence.Paired (counts : Prop) (r : Value → Value → Prop) (s u : Sequence Value) :
    Prop where
  home : s.home = u.home
  room : counts → s.capacity = u.capacity
  items : List.Forall₂ r s.items u.items

structure Object.Paired (counts : Prop) (r : Value → Value → Prop) (o p : Object Value) :
    Prop where
  home : o.home = p.home
  room : counts → o.capacity = p.capacity
  members : List.Forall₂ (Named r) o.members p.members

section Weakening

variable {counts : Prop} {r q : Value → Value → Prop}

theorem Sequence.Paired.imp {s u : Sequence Value} (weaker : ∀ v w, r v w → q v w)
    (same : s.Paired counts r u) : s.Paired counts q u where
  home := same.home
  room := same.room
  items := same.items.imp weaker

theorem Object.Paired.imp {o p : Object Value} (weaker : ∀ v w, r v w → q v w)
    (same : o.Paired counts r p) : o.Paired counts q p where
  home := same.home
  room := same.room
  members := same.members.imp fun _ _ alike => ⟨alike.1, weaker _ _ alike.2⟩

end Weakening

namespace Value

mutual

/-- The second value is the first with objects in place of some of its empty objects. Room that is
kept for more entries may differ as well, unless it counts. -/
inductive Promoted (counts : Prop) : Value → Value → Prop
  | leaf (t : Tag) (x : Leaf) : Promoted counts (leaf t x) (leaf t x)
  | empty (t : Tag) {o : Object Value} : o.home = .heap → (counts → o.capacity = 0) →
      o.members = [] → Promoted counts (leaf t .emptyObject) (object t o)
  | array (t : Tag) {s u : Sequence Value} : s.home = u.home →
      (counts → s.capacity = u.capacity) → PromotedItems counts s.items u.items →
      Promoted counts (array t s) (array t u)
  | object (t : Tag) {o p : Object Value} : o.home = p.home →
      (counts → o.capacity = p.capacity) → PromotedMembers counts o.members p.members →
      Promoted counts (object t o) (object t p)
  | ref (t : Tag) {v w : Value} : Promoted counts v w → Promoted counts (ref t v) (ref t w)

inductive PromotedItems (counts : Prop) : List Value → List Value → Prop
  | nil : PromotedItems counts [] []
  | cons {v w : Value} {vs ws : List Value} : Promoted counts v w →
      PromotedItems counts vs ws → PromotedItems counts (v :: vs) (w :: ws)

inductive PromotedMembers (counts : Prop) : List (Member Value) → List (Member Value) → Prop
  | nil : PromotedMembers counts [] []
  | cons {m n : Member Value} {ms ns : List (Member Value)} : m.key = n.key →
      Promoted counts m.value n.value → PromotedMembers counts ms ns →
      PromotedMembers counts (m :: ms) (n :: ns)

end

/-- A relation that passes from parts to wholes and does not notice which way an object without
members is held. -/
structure Compatible (counts : Prop) (r : Value → Value → Prop) : Prop where
  leaf : ∀ t x, r (leaf t x) (leaf t x)
  empty : ∀ t {o : Object Value}, o.home = .heap → (counts → o.capacity = 0) → o.members = [] →
    r (.leaf t .emptyObject) (object t o)
  array : ∀ t {s u : Sequence Value}, s.Paired counts r u → r (array t s) (array t u)
  object : ∀ t {o p : Object Value}, o.Paired counts r p → r (object t o) (object t p)
  ref : ∀ t {v w}, r v w → r (ref t v) (ref t w)

section Relating

variable {counts : Prop} {r : Value → Value → Prop}

mutual

theorem Compatible.relates (compatible : Compatible counts r) :
    ∀ {v w}, Promoted counts v w → r v w
  | _, _, .leaf t x => compatible.leaf t x
  | _, _, .empty t home room bare => compatible.empty t home room bare
  | _, _, .array t home room items =>
    compatible.array t ⟨home, room, compatible.relates_items items⟩
  | _, _, .object t home room members =>
    compatible.object t ⟨home, room, compatible.relates_members members⟩
  | _, _, .ref t target => compatible.ref t (compatible.relates target)

theorem Compatible.relates_items (compatible : Compatible counts r) :
    ∀ {vs ws}, PromotedItems counts vs ws → List.Forall₂ r vs ws
  | _, _, .nil => .nil
  | _, _, .cons head tail => .cons (compatible.relates head) (compatible.relates_items tail)

theorem Compatible.relates_members (compatible : Compatible counts r) :
    ∀ {ms ns}, PromotedMembers counts ms ns → List.Forall₂ (Named r) ms ns
  | _, _, .nil => .nil
  | _, _, .cons sameKey head tail =>
    .cons ⟨sameKey, compatible.relates head⟩ (compatible.relates_members tail)

end

theorem PromotedItems.of_forall₂ {vs ws : List Value}
    (parts : List.Forall₂ (Promoted counts) vs ws) : PromotedItems counts vs ws := by
  induction parts with
  | nil => exact .nil
  | cons head _ ih => exact .cons head ih

theorem PromotedMembers.of_forall₂ {ms ns : List (Member Value)}
    (parts : List.Forall₂ (Named (Promoted counts)) ms ns) : PromotedMembers counts ms ns := by
  induction parts with
  | nil => exact .nil
  | cons head _ ih => exact .cons head.1 head.2 ih

theorem promoted_compatible : Compatible counts (Promoted counts) where
  leaf := .leaf
  empty t _ := .empty t
  array t _ _ same := .array t same.home same.room (.of_forall₂ same.items)
  object t _ _ same := .object t same.home same.room (.of_forall₂ same.members)
  ref t _ _ := .ref t

theorem PromotedItems.paired {s u : Sequence Value} (items : PromotedItems counts s.items u.items)
    (home : s.home = u.home) (room : counts → s.capacity = u.capacity) :
    s.Paired counts (Promoted counts) u :=
  ⟨home, room, promoted_compatible.relates_items items⟩

theorem PromotedMembers.paired {o p : Object Value}
    (members : PromotedMembers counts o.members p.members) (home : o.home = p.home)
    (room : counts → o.capacity = p.capacity) : o.Paired counts (Promoted counts) p :=
  ⟨home, room, promoted_compatible.relates_members members⟩

end Relating

end Value

namespace Object.Paired

variable {counts : Prop} {r : Value → Value → Prop} {o p : Object Value}

theorem keys (same : o.Paired counts r p) :
    o.members.map Member.key = p.members.map Member.key :=
  map_eq_of_forall₂ (same.members.imp fun _ _ alike => alike.1)

theorem of_bare (home : o.home = .heap) (room : counts → o.capacity = 0) (bare : o.members = []) :
    Object.Paired counts r {} o where
  home := home.symm
  room counted := (room counted).symm
  members := by
    rw [bare]
    exact .nil

theorem length (same : o.Paired counts r p) : o.length = p.length := same.members.length_eq

theorem find? (same : o.Paired counts r p) (key : String) : o.find? key = p.find? key :=
  Object.find?_congr same.keys key

theorem get? (same : o.Paired counts r p) (key : String) :
    Option.Rel r (o.get? key) (p.get? key) := by
  unfold Object.get?
  simp only [same.find? key]
  cases p.find? key with
  | none => exact .none
  | some pos =>
    obtain ⟨first, second⟩ | ⟨m, n, first, second, alike⟩ :=
      rel_cases (getElem?_rel same.members pos) <;> simp only [Option.bind_some, first, second]
    · exact .none
    · exact .some alike.2

end Object.Paired

namespace Value

variable {counts : Prop} {v w : Value}

section Writing

theorem equals_compatible : Compatible counts (equals · ·) where
  leaf _ x := x.equals_self
  empty t o _ _ bare := by
    simp only [equals, resolve, bare, List.isEmpty_nil, decide_true, Bool.and_true]
  array _ _ _ same := equalItems_of_forall₂ same.items
  object _ o p same := by
    rw [equals_objects rfl rfl, equalMembers_of_forall₂ same.members, Bool.and_true]
    exact decide_eq_true same.length
  ref _ v w same := (equals_ref_right _ _ _).trans same

theorem toEvent_compatible : Compatible counts (toEvent · = toEvent ·) where
  leaf _ _ := rfl
  empty t o _ _ bare := by simp only [toEvent, Leaf.toEvent, bare, List.length_nil, memberEvents]
  array _ s u same := by
    simp only [toEvent, itemEvents_eq_map, same.items.length_eq, map_eq_of_forall₂ same.items]
  object _ o p same := by
    simp only [toEvent, memberEvents_eq_map, same.members.length_eq]
    refine congrArg _ (map_eq_of_forall₂ (same.members.imp fun m n alike => ?_))
    simp only [alike.1, alike.2]
  ref _ _ _ same := same

theorem debugTexts_compatible : Compatible counts (debugTexts · = debugTexts ·) where
  leaf _ _ := rfl
  empty t o _ _ bare := by
    funext layout
    simp only [debugTexts, debugText, Leaf.debugText, bare, debugMembers]
    cases layout <;> rfl
  array _ s u same := by
    funext layout
    have texts := map_eq_of_forall₂ (same.items.imp fun v w same => congrFun same layout.inner)
    simp only [debugTexts] at texts
    simp only [debugTexts, debugText, debugItems_eq_map, texts]
  object _ o p same := by
    funext layout
    simp only [debugTexts, debugText, debugMembers_eq_map]
    refine congrArg (fun entries => "Object " ++ layout.map entries)
      (map_eq_of_forall₂ (same.members.imp fun m n alike => ?_))
    have text := congrFun alike.2 layout.inner
    simp only [debugTexts] at text
    simp only [alike.1, text]
  ref _ _ _ same := same

end Writing

namespace Promoted

theorem refl (counts : Prop) : ∀ v : Value, Promoted counts v v := Inherited.holds {
  leaf := .leaf
  array t _ items := .array t rfl (fun _ => rfl)
    (.of_forall₂ (List.forall₂_same.mpr items))
  object t _ members := .object t rfl (fun _ => rfl)
    (.of_forall₂ (List.forall₂_same.mpr fun m isIn => ⟨rfl, members m isIn⟩))
  ref t _ target := .ref t target }

end Promoted

/-- Two values that are no references, held in the same way or in one of the two ways to hold an
object without members. -/
inductive Held (counts : Prop) : Value → Value → Prop
  | leaf (t : Tag) (x : Leaf) : Held counts (leaf t x) (leaf t x)
  | empty (t : Tag) {o : Object Value} : Object.Paired counts (Promoted counts) {} o →
      Held counts (leaf t .emptyObject) (object t o)
  | array (t : Tag) {s u : Sequence Value} : s.Paired counts (Promoted counts) u →
      Held counts (array t s) (array t u)
  | object (t : Tag) {o p : Object Value} : o.Paired counts (Promoted counts) p →
      Held counts (object t o) (object t p)

namespace Promoted

theorem resolve : ∀ {v w : Value}, Promoted counts v w → Held counts v.resolve w.resolve
  | _, _, .leaf t x => .leaf t x
  | _, _, .empty t home room bare => .empty t (.of_bare home room bare)
  | _, _, .array t home room items => .array t (items.paired home room)
  | _, _, .object t home room members => .object t (members.paired home room)
  | _, _, .ref _ target => target.resolve

theorem read {γ : Type} (promoted : Promoted counts v w) (f : Value → γ) (r : γ → γ → Prop)
    (direct : ∀ t v, f (.ref t v) = f v) (held : ∀ {v w}, Held counts v w → r (f v) (f w)) :
    r (f v) (f w) := by
  rw [← reading_resolve direct v, ← reading_resolve direct w]
  exact held promoted.resolve

theorem facts (promoted : Promoted counts v w) : v.facts = w.facts :=
  promoted.read Value.facts (· = ·) (fun _ _ => rfl) fun held => by cases held <;> rfl

theorem kind (promoted : Promoted counts v w) : v.kind = w.kind :=
  congrArg Facts.kind promoted.facts

theorem length (promoted : Promoted counts v w) : v.length = w.length :=
  promoted.read Value.length (· = ·) (fun _ _ => rfl) fun held => by
    cases held with
    | leaf t x => rfl
    | empty t same => exact same.length
    | array t same => exact same.items.length_eq
    | object t same => exact same.length

theorem capacity (promoted : Promoted counts v w) (counted : counts) :
    v.capacity = w.capacity :=
  promoted.read Value.capacity (· = ·) (fun _ _ => rfl) fun held => by
    cases held with
    | leaf t x => rfl
    | empty t same => exact same.room counted
    | array t same => exact same.room counted
    | object t same => exact same.room counted

theorem asSequence? (promoted : Promoted counts v w) :
    Option.Rel (Sequence.Paired counts (Promoted counts)) v.asSequence? w.asSequence? :=
  promoted.read Value.asSequence? _ (fun _ _ => rfl) fun held => by
    cases held with
    | array t same => exact .some same
    | _ => exact .none

theorem asObject? (promoted : Promoted counts v w) :
    Option.Rel (Object.Paired counts (Promoted counts)) v.asObject? w.asObject? :=
  promoted.read Value.asObject? _ (fun _ _ => rfl) fun held => by
    cases held with
    | leaf t x =>
      cases x with
      | emptyObject => exact .some ⟨rfl, fun _ => rfl, .nil⟩
      | _ => exact .none
    | empty t same => exact .some same
    | array t same => exact .none
    | object t same => exact .some same

theorem containsKey (promoted : Promoted counts v w) (key : String) :
    v.containsKey key = w.containsKey key := by
  unfold Value.containsKey
  obtain ⟨first, second⟩ | ⟨o, p, first, second, same⟩ := rel_cases promoted.asObject? <;>
    simp only [first, second, Option.any_none, Option.any_some]
  simp only [same.find? key]

theorem at? (promoted : Promoted counts v w) (i : Nat) :
    Together (Promoted counts) (v.at? i) (w.at? i) :=
  promoted.read (Value.at? · i) _ (fun _ _ => rfl) fun held => by
    cases held with
    | leaf t x => cases x <;> exact .error _
    | empty t same => exact .entry same.members (·.2) i
    | array t same => exact .entry (f := id) same.items id i
    | object t same => exact .entry same.members (·.2) i

theorem get? (promoted : Promoted counts v w) (p : Step) :
    Option.Rel (Promoted counts) (v.get? p) (w.get? p) := by
  unfold Value.get?
  cases p with
  | index i =>
    obtain ⟨first, second⟩ | ⟨s, u, first, second, same⟩ := rel_cases promoted.asSequence? <;>
      simp only [first, second, Option.bind_none, Option.bind_some]
    · exact .none
    · exact getElem?_rel same.items i
  | key k =>
    obtain ⟨first, second⟩ | ⟨o, q, first, second, same⟩ := rel_cases promoted.asObject? <;>
      simp only [first, second, Option.bind_none, Option.bind_some]
    · exact .none
    · exact same.get? k

theorem getPath? (promoted : Promoted counts v w) (path : List Step) :
    Option.Rel (Promoted counts) (v.getPath? path) (w.getPath? path) := by
  induction path generalizing v w with
  | nil => exact .some promoted
  | cons p ps ih =>
    obtain ⟨first, second⟩ | ⟨x, y, first, second, inner⟩ := rel_cases (promoted.get? p) <;>
      simp only [Value.getPath?, first, second, Option.bind_none, Option.bind_some]
    · exact .none
    · exact ih inner

theorem readPath (promoted : Promoted counts v w) (path : List Step) :
    Promoted counts (v.readPath path) (w.readPath path) := by
  induction path generalizing v w with
  | nil => exact promoted
  | cons p ps ih =>
    have child : Promoted counts (v.child p) (w.child p) := by
      obtain ⟨first, second⟩ | ⟨x, y, first, second, inner⟩ := rel_cases (promoted.get? p) <;>
        simp only [Value.child, first, second, Option.getD_none, Option.getD_some]
      · exact .leaf _ _
      · exact inner
    exact ih child

theorem tag (promoted : Promoted counts v w) : v.tag = w.tag := by
  cases promoted <;> rfl

theorem ownArray? (promoted : Promoted counts v w) :
    Option.Rel (Sequence.Paired counts (Promoted counts)) v.ownArray? w.ownArray? := by
  cases promoted with
  | array t home room items => exact .some (items.paired home room)
  | _ => exact .none

end Promoted

/-- What a search for a key says in two values that are about to be written. The one question that
tells them apart: the empty object has no place to write at, while an object without members
answers its end. -/
inductive Found (counts : Prop) (r : Value → Value → Prop) (v w : Value) (key : String) : Prop
  | nowhere : v.findOwn? key = none → w.findOwn? key = none → Found counts r v w key
  | there {o p : Object Value} {pos : Nat} : o.Paired counts r p →
      v.findOwn? key = some (o, pos) → w.findOwn? key = some (p, pos) → Found counts r v w key
  | apart {o : Object Value} : v.storage = .emptyObject → v.findOwn? key = none →
      w.findOwn? key = some (o, 0) → o.members = [] → Found counts r v w key

theorem Promoted.found (promoted : Promoted counts v w) (key : String) :
    Found counts (Promoted counts) v w key := by
  cases promoted with
  | leaf t x => exact .nowhere rfl rfl
  | empty t home room bare =>
    rename_i o
    have same : Object.Paired counts (Promoted counts) {} o := .of_bare home room bare
    have pos : o.find key = 0 := by
      simp only [Object.find, ← same.find? key, Object.length, bare]
      rfl
    -- The object answers its end, and the empty one has no place to answer.
    refine .apart rfl rfl ?_ bare
    simp only [findOwn?, pos]
  | array t home room items => exact .nowhere rfl rfl
  | object t home room members =>
    rename_i o p
    have same := members.paired home room
    have pos : o.find key = p.find key := by
      simp only [Object.find, same.find? key, same.length]
    refine .there same rfl ?_
    simp only [findOwn?, pos]
  | ref t target => exact .nowhere rfl rfl

/-- Nothing that reads the two values tells them apart, except by their storage, by room that does
not count and by where a key would be written in the empty object. The parts that a reader is given
are again only related. -/
structure ReadSame (counts : Prop) (r : Value → Value → Prop) (v w : Value) : Prop where
  equal : v.equals w = true
  equals_left : ∀ u : Value, v.equals u = w.equals u
  equals_right : ∀ u : Value, u.equals v = u.equals w
  compare_left : ∀ u : Value, v.compare u = w.compare u
  compare_right : ∀ u : Value, u.compare v = u.compare w
  event : v.toEvent = w.toEvent
  debugText : ∀ layout, v.debugText layout = w.debugText layout
  tag : v.tag = w.tag
  facts : v.facts = w.facts
  length : v.length = w.length
  capacity : counts → v.capacity = w.capacity
  containsKey : ∀ key, v.containsKey key = w.containsKey key
  asSequence? : Option.Rel (Sequence.Paired counts r) v.asSequence? w.asSequence?
  asObject? : Option.Rel (Object.Paired counts r) v.asObject? w.asObject?
  at? : ∀ i, Together r (v.at? i) (w.at? i)
  get? : ∀ p, Option.Rel r (v.get? p) (w.get? p)
  getPath? : ∀ path, Option.Rel r (v.getPath? path) (w.getPath? path)
  readPath : ∀ path, r (v.readPath path) (w.readPath path)
  ownArray? : Option.Rel (Sequence.Paired counts r) v.ownArray? w.ownArray?
  found : ∀ key, Found counts r v w key

theorem Promoted.readSame (promoted : Promoted counts v w) :
    ReadSame counts (Promoted counts) v w := by
  have order := compare_totalOrder
  have trans := order.transCmp
  have equal : v.equals w := equals_compatible.relates promoted
  have level : v.compare w = .eq := (order.eq_iff v w).mpr equal
  have left : ∀ u : Value, v.compare u = w.compare u := fun u => Std.TransCmp.congr_left level
  have right : ∀ u : Value, u.compare v = u.compare w := fun u => Std.TransCmp.congr_right level
  exact {
    equal
    equals_left u := by simp only [Bool.eq_iff_iff, ← order.eq_iff, left]
    equals_right u := by simp only [Bool.eq_iff_iff, ← order.eq_iff, right]
    compare_left := left
    compare_right := right
    event := toEvent_compatible.relates promoted
    debugText := congrFun (debugTexts_compatible.relates promoted)
    tag := promoted.tag
    facts := promoted.facts
    length := promoted.length
    capacity := promoted.capacity
    containsKey := promoted.containsKey
    asSequence? := promoted.asSequence?
    asObject? := promoted.asObject?
    at? := promoted.at?
    get? := promoted.get?
    getPath? := promoted.getPath?
    readPath := promoted.readPath
    ownArray? := promoted.ownArray?
    found := promoted.found }

end Value

end DocTree
