import DocTree.Proofs.Built
import DocTree.Proofs.TotalOrder

namespace DocTree

theorem equalByKey_comm (ms ns : List (Member Value)) : equalByKey ms ns = equalByKey ns ms := by
  rw [equalByKey, equalByKey, Value.equalMembers_comm, decide_eq_decide.mpr eq_comm]

theorem equalByKey_iff_agree {ms ns : List (Member Value)} (first : AscendingBy Member.key ms)
    (second : AscendingBy Member.key ns) :
    equalByKey ms ns = true ↔ Agree (lookup ms) (lookup ns) := by
  constructor
  · intro equal
    exact agree_of_equalMembers ((Bool.and_eq_true _ _).mp equal).2
  · intro agree
    exact equalByKey_of_agree agree first second

theorem Value.equalsByKey_eq {v : Value} {o : Object Value} (held : v.asObject? = some o)
    (ms : List (Member Value)) : v.equalsByKey ms = equalByKey o.members ms := by
  rw [equalsByKey, held]
  rfl

theorem compareLists_eq_compareLex {α : Type} (cmp : α → α → Ordering) (xs ys : List α) :
    compareLists cmp xs ys = List.compareLex cmp xs ys := by
  induction xs generalizing ys with
  | nil => cases ys <;> rfl
  | cons x xs ih =>
    cases ys with
    | nil => rfl
    | cons y ys => rw [compareLists, ih, List.compareLex_cons_cons]

inductive ObjectForm where
  | sorted (o : Object Value)
  | inserted (o : InsertionObject Value)
  | value (v : Value)

namespace ObjectForm

/-- Objects that callers can build. A value counts if it holds an object, the empty one included. -/
def Built : ObjectForm → Prop
  | sorted o => o.Built
  | inserted o => o.Built
  | value v => v.Built ∧ v.asObject?.isSome

def isValue : ObjectForm → Bool
  | value _ => true
  | _ => false

def get? : ObjectForm → String → Option Value
  | sorted o, key => o.get? key
  | inserted o, key => o.get? key
  | value v, key => v.get? (.key key)

def members : ObjectForm → List (Member Value)
  | sorted o => o.members
  | inserted o => o.members
  | value v => (v.asObject?.getD {}).members

def byKey : ObjectForm → List (Member Value)
  | sorted o => o.byKey
  | inserted o => o.byKey
  | value v => (v.asObject?.getD {}).byKey

def equals : ObjectForm → ObjectForm → Bool
  | value v, value w => v.equals w
  | value v, a => v.equalsByKey a.byKey
  | a, value v => v.equalsByKey a.byKey
  | a, b => equalByKey a.byKey b.byKey

/-- There is no order between a value and what is not one. -/
def compare? : ObjectForm → ObjectForm → Option Ordering
  | value v, value w => some (v.compare w)
  | value _, _ | _, value _ => none
  | a, b => some (compareByKey a.byKey b.byKey)

structure Listed (a : ObjectForm) (ms : List (Member Value)) : Prop where
  ascending : AscendingBy Member.key ms
  lookup : ∀ key, lookup ms key = a.get? key

variable {a b : ObjectForm} {ms ns : List (Member Value)}

theorem Listed.unique (first : a.Listed ms) (second : a.Listed ns) : ms = ns :=
  first.ascending.ext_lookup second.ascending fun key =>
    (first.lookup key).trans (second.lookup key).symm

theorem held_of_built {v : Value} (built : (value v).Built) :
    ∃ o, v.asObject? = some o ∧ o.Ordered ∧ (value v).members = o.members ∧
      (value v).byKey = o.members ∧ ∀ key, (value v).get? key = o.get? key := by
  obtain ⟨o, held⟩ := Option.isSome_iff_exists.mp built.2
  refine ⟨o, held, (Value.asObject?_wellFormed built.1.wellFormed held).1, ?_⟩
  simp [members, byKey, get?, Value.get?, held, Object.byKey]

theorem Built.lookup_members (built : a.Built) (key : String) :
    lookup a.members key = a.get? key := by
  cases a with
  | sorted o => exact (built.ordered.get?_eq_lookup key).symm
  | inserted o => exact (built.indexed.get?_eq_lookup key).symm
  | value v =>
    obtain ⟨o, -, ordered, whole, -, found⟩ := held_of_built built
    rw [whole, found, ordered.get?_eq_lookup]

theorem Built.listed (built : a.Built) : a.Listed a.byKey := by
  cases a with
  | sorted o => exact ⟨built.ordered, built.lookup_members⟩
  | inserted o =>
    refine ⟨built.indexed.byKey_ascending, fun key => ?_⟩
    exact (built.indexed.lookup_byKey key).trans (built.lookup_members key)
  | value v =>
    obtain ⟨o, -, ordered, whole, listed, -⟩ := held_of_built built
    rw [listed]
    exact ⟨ordered, fun key => whole ▸ built.lookup_members key⟩

theorem equals_eq (first : a.Built) (second : b.Built) :
    a.equals b = equalByKey a.byKey b.byKey := by
  cases a with
  | value v =>
    obtain ⟨o, held, -, -, listed, -⟩ := held_of_built first
    cases b with
    | value w =>
      obtain ⟨p, held', -, -, listed', -⟩ := held_of_built second
      rw [listed, listed']
      exact Value.equals_objects held held'
    | sorted p | inserted p =>
      rw [listed]
      exact Value.equalsByKey_eq held _
  | sorted o | inserted o =>
    cases b with
    | value w =>
      obtain ⟨p, held, -, -, listed, -⟩ := held_of_built second
      rw [listed, equalByKey_comm]
      exact Value.equalsByKey_eq held _
    | sorted p | inserted p => rfl

theorem compare?_eq (first : a.Built) (second : b.Built) : a.compare? b =
    if a.isValue = b.isValue then some (compareByKey a.byKey b.byKey) else none := by
  cases a with
  | value v =>
    cases b with
    | value w =>
      obtain ⟨o, held, -, -, listed, -⟩ := held_of_built first
      obtain ⟨p, held', -, -, listed', -⟩ := held_of_built second
      rw [listed, listed', compareByKey, Value.compareMembers_eq]
      exact congrArg some (Value.compare_objects held held')
    | sorted p | inserted p => rfl
  | sorted o | inserted o => cases b <;> rfl

/-- What equality and order of two objects amount to. They are equal, whichever comes first, if they
have the same keys with equal values; where they are ordered, the order is that of their pairs of
keys and values by ascending key. -/
structure AsMaps (a b : ObjectForm) : Prop where
  equal : a.equals b = true ↔
    (∀ key, key ∈ a.members.map Member.key ↔ key ∈ b.members.map Member.key) ∧
      ∀ key, Option.Rel (fun v w => v.equals w = true) (a.get? key) (b.get? key)
  flipped : b.equals a = a.equals b
  listed : (∃ ms, a.Listed ms) ∧ ∃ ns, b.Listed ns
  order : ∀ ms ns, a.Listed ms → b.Listed ns → a.compare? b =
    if a.isValue = b.isValue then some (List.compareLex
      (fun m n => (Ord.compare m.key n.key).then (m.value.compare n.value)) ms ns) else none

theorem Built.mem_keys (built : a.Built) (key : String) :
    key ∈ a.members.map Member.key ↔ (a.get? key).isSome := by
  rw [← built.lookup_members, lookup_isSome_iff]

theorem Built.asMaps (first : a.Built) (second : b.Built) : AsMaps a b where
  equal := by
    have agree := equalByKey_iff_agree first.listed.ascending second.listed.ascending
    rw [funext first.listed.lookup, funext second.listed.lookup] at agree
    rw [equals_eq first second, agree]
    refine (and_iff_right_of_imp fun agree key => ?_).symm
    rw [first.mem_keys, second.mem_keys, Agree.isSome agree]
  flipped := by rw [equals_eq first second, equals_eq second first, equalByKey_comm]
  listed := ⟨⟨_, first.listed⟩, ⟨_, second.listed⟩⟩
  order ms ns := by
    intro whole whole'
    rw [whole.unique first.listed, whole'.unique second.listed, compare?_eq first second,
      compareByKey, Value.compareMembers_eq, compareLists_eq_compareLex]
    rfl

theorem Built.equals_of_get? (first : a.Built) (second : b.Built)
    (same : ∀ key, a.get? key = b.get? key) : a.equals b = true := by
  apply (first.asMaps second).equal.mpr
  constructor
  · intro key
    rw [first.mem_keys, second.mem_keys, same]
  · intro key
    rw [same]
    exact rel_self _

end ObjectForm

theorem InsertionObject.Indexed.equals_of_agree {x y : InsertionObject Value} (first : x.Indexed)
    (second : y.Indexed) (agree : Agree (lookup x.members) (lookup y.members)) :
    (ObjectForm.inserted x).equals (.inserted y) = true := by
  have byKey : Agree (lookup x.byKey) (lookup y.byKey) := by
    intro key
    rw [first.lookup_byKey, second.lookup_byKey]
    exact agree key
  exact equalByKey_of_agree byKey first.byKey_ascending second.byKey_ascending

def MadeEqual (v : Value) (a : ObjectForm) : Prop :=
  (ObjectForm.value v).equals a = true ∧ a.equals (.value v) = true

theorem Object.ofObject_equal (o : Object Value) : MadeEqual (.ofObject o) (.sorted o) := by
  have equal : (Value.ofObject o).equalsByKey o.byKey = true := by
    rw [Value.equalsByKey_eq rfl, equalByKey, Object.byKey, decide_eq_true rfl]
    exact Value.equalMembers_self o.members
  exact ⟨equal, equal⟩

theorem InsertionObject.Indexed.toValue_equal {o : InsertionObject Value} (sound : o.Indexed)
    {w : Value} {l l' : Ledger} (made : o.toValue l = .ok w l') : MadeEqual w (.inserted o) := by
  obtain ⟨q, rfl, ordered, values⟩ := toValue_ok made
  have agree : Agree (lookup q.members) (lookup o.byKey) := by
    intro key
    rw [values, sound.lookup_byKey]
    cases lookup o.members key with
    | none => exact .none
    | some v => exact .some ((Value.equals_housedIn o.home .heap v v).trans v.equals_self)
  have equal : (Value.ofObject q).equalsByKey o.byKey = true := by
    rw [Value.equalsByKey_eq rfl]
    exact equalByKey_of_agree agree ordered sound.byKey_ascending
  exact ⟨equal, equal⟩

theorem InsertionObject.toValue_of_fits {o : InsertionObject Value} {l : Ledger}
    (fits : Fits o.home o.members l) : ∃ w l', o.toValue l = .ok w l' := by
  obtain ⟨k, adopted⟩ := fits.adopt
  exact ⟨_, k, bind_of_ok (bind_of_ok adopted)⟩

theorem InsertionObject.toValue_of_overfull {o : InsertionObject Value} {l : Ledger}
    (overfull : ¬ Fits o.home o.members l) : ∃ bytes l', o.toValue l = .error (.copy bytes) l' := by
  obtain ⟨bytes, k, refused⟩ := Fits.refused overfull
  exact ⟨bytes, k, bind_of_error (bind_of_error refused)⟩

/-- Objects are equal and ordered as finite maps, whatever their forms and their past. A value made
of an object equals it, unless an arena has no room to make it. -/
theorem objects_are_maps :
    (∀ a b : ObjectForm, a.Built → b.Built → ObjectForm.AsMaps a b) ∧
    (∀ o : Object Value, MadeEqual (.ofObject o) (.sorted o)) ∧
    ∀ o : InsertionObject Value, o.Built → ∀ l,
      (Fits o.home o.members l → ∃ w l', o.toValue l = .ok w l' ∧ MadeEqual w (.inserted o)) ∧
      (¬ Fits o.home o.members l → ∃ bytes l', o.toValue l = .error (.copy bytes) l') := by
  refine ⟨fun a b first second => first.asMaps second, Object.ofObject_equal,
    fun o built l => ⟨fun fits => ?_, ?_⟩⟩
  · obtain ⟨w, l', made⟩ := InsertionObject.toValue_of_fits fits
    exact ⟨w, l', made, built.indexed.toValue_equal made⟩
  · exact InsertionObject.toValue_of_overfull

def sampleEntries : List (Member Value) := [⟨"c", .emptyObject⟩, ⟨"a", .null⟩]

def sampleForward : Object Value :=
  leftBy ((ObjectOp.extend sampleEntries).run ⟨.empty .heap, []⟩)

def sampleBackward : InsertionObject Value :=
  leftBy ((ObjectOp.extend sampleEntries).run ⟨.empty .heap, []⟩)

theorem sampleEntries_built : ∀ v ∈ sampleEntries.map Member.value, v.Built :=
  List.forall_mem_cons.mpr ⟨.leaf _ _, List.forall_mem_singleton.mpr (.leaf _ _)⟩

theorem sampleForward_built : (ObjectForm.value (.ofObject sampleForward)).Built :=
  ⟨.object _ (.run _ [] (.empty .heap) trivial sampleEntries_built), rfl⟩

theorem sampleBackward_built : (ObjectForm.inserted sampleBackward).Built :=
  .run _ [] (.empty .heap) trivial sampleEntries_built

theorem sampleBackward_fits : Fits sampleBackward.home sampleBackward.members [] := by
  have home : sampleBackward.home = .heap := InsertionObject.dedup_home (.empty .heap) _
  rw [home]
  trivial

theorem objects_are_maps_sample :
    ObjectForm.AsMaps (.inserted sampleBackward) (.value (.ofObject sampleForward)) ∧
      ∃ w l', sampleBackward.toValue [] = .ok w l' ∧ MadeEqual w (.inserted sampleBackward) :=
  ⟨objects_are_maps.1 _ _ sampleBackward_built sampleForward_built,
    (objects_are_maps.2.2 sampleBackward sampleBackward_built []).1 sampleBackward_fits⟩

end DocTree
