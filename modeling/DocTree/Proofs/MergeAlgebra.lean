import DocTree.Proofs.BulkInsertion
import DocTree.Proofs.Endings
import DocTree.Proofs.Hints
import DocTree.Proofs.MapEquality

/-!
The algebra of merging. What a merge makes of the values under keys is a choice between two
values, and what it makes of the order of keys is the one list behind the new ones of the other.
-/

namespace DocTree

variable {σ τ α : Type}

def Yields (away : Prop) (e : Edit σ Unit) (x : σ) (Q : σ → Prop) : Prop :=
  ∀ l, Ends away Q (e ⟨x, l⟩)

/-- First `b` and then `c` into `a` is what `c` into `b`, and that into `a`, comes to. -/
def MergesAssociate (away : Prop) (op : σ → Edit σ Unit) (same : σ → σ → Prop) (a b c : σ) :
    Prop :=
  Yields away (op b) a fun ab => Yields away (op c) ab fun left =>
    Yields away (op c) b fun bc => Yields away (op bc) a fun right => same left right

/-- The laws of merging: the order of merges does not matter, what is merged into itself stays the
same, and to update with another is to be merged into it. -/
structure MergeLaws (away : Prop) (merge update : σ → Edit σ Unit) (same equal : σ → σ → Prop)
    (a b c : σ) : Prop where
  merge_assoc : MergesAssociate away merge same a b c
  update_assoc : MergesAssociate away update same a b c
  merge_self : Yields away (merge a) a fun x => same x a
  update_self : Yields away (update a) a fun x => same x a
  swap : Yields away (update b) a fun x => Yields away (merge a) b fun y => equal x y

/-- What a merge leaves under a key, of what is known there and what comes in. -/
def combined (overwrite : Bool) (home : Home) (known coming : Option Value) : Option Value :=
  if overwrite then (coming.map (·.housedIn home)).or known
  else known.or (coming.map (·.housedIn home))

structure Combines (R : Option Value → Option Value → Prop) (h k : Home) : Prop where
  assoc : ∀ overwrite x y z, R (combined overwrite h (combined overwrite h x y) z)
    (combined overwrite h x (combined overwrite k y z))
  self : ∀ overwrite x, R (combined overwrite h x x) x
  swap : ∀ x y, R (combined true h x y) (combined false k y x)

theorem map_housedIn_heap (x : Option Value) : x.map (·.housedIn .heap) = x := Option.map_id'

theorem combined_heap (overwrite : Bool) (x y : Option Value) :
    combined overwrite .heap x y = if overwrite then y.or x else x.or y := by
  rw [combined, map_housedIn_heap]

theorem combines_heap : Combines Eq .heap .heap where
  assoc overwrite x y z := by
    simp only [combined_heap]
    cases overwrite with
    | false => exact Option.or_assoc
    | true => exact Option.or_assoc.symm
  self overwrite x := by
    simp only [combined_heap, Option.or_self, ite_self]
  swap x y := by
    simp only [combined_heap]
    rfl

abbrev EqualAt : Option Value → Option Value → Prop := Option.Rel fun v w => v.equals w = true

theorem equalAt_of_eq {x y : Option Value} (same : x = y) : EqualAt x y := same ▸ rel_self x

theorem equalAt_moved (h k : Home) (x : Option Value) :
    EqualAt (x.map (·.housedIn h)) (x.map (·.housedIn k)) :=
  rel_housedIn (rel_self x) h k

theorem equalAt_housed (h : Home) (x : Option Value) : EqualAt (x.map (·.housedIn h)) x := by
  simpa only [map_housedIn_heap] using equalAt_moved h .heap x

theorem equalAt_of_housed (h : Home) (x : Option Value) : EqualAt x (x.map (·.housedIn h)) := by
  simpa only [map_housedIn_heap] using equalAt_moved .heap h x

theorem combines_equal (h k : Home) : Combines EqualAt h k where
  assoc overwrite x y z := by
    have again := rel_housedIn (equalAt_of_housed k z) h h
    unfold combined
    cases overwrite with
    | false =>
      simp only [if_neg Bool.false_ne_true, Option.or_assoc, Option.map_or]
      exact rel_or (rel_self x) (rel_or (rel_self _) again)
    | true =>
      simp only [if_true, Option.or_assoc, Option.map_or]
      exact rel_or again (rel_self _)
  self overwrite x := by
    unfold combined
    cases x with
    | none => cases overwrite <;> exact .none
    | some v =>
      cases overwrite with
      | false => exact rel_self (some v)
      | true => exact equalAt_housed h (some v)
  swap x y := by
    change EqualAt ((y.map _).or x) (y.or (x.map _))
    exact rel_or (equalAt_housed h y) (equalAt_of_housed k x)

/-- What merging goes by: how a container is read, and the order of its keys as far as it tells one
beyond that of the keys themselves. -/
structure MergeView (σ : Type) extends Reader σ where
  keys : σ → List String

/-- What is left in `x` of a merge of `b` into `a`. -/
structure Merged (v : MergeView σ) (overwrite : Bool) (a b x : σ) : Prop where
  valid : v.Valid x
  home : v.home x = v.home a
  keys : v.keys x = addAllNew id (v.keys a) (v.keys b)
  value? : ∀ key, v.value? x key = combined overwrite (v.home a) (v.value? a key) (v.value? b key)

def Merges (v : MergeView σ) (overwrite : Bool) (op : σ → Edit σ Unit) : Prop :=
  ∀ a b, v.Valid a → v.Valid b → Yields (v.home a ≠ .heap) (op b) a (Merged v overwrite a b)

structure ReadAlike (v : MergeView σ) (R : Option Value → Option Value → Prop) (x y : σ) :
    Prop where
  left : v.Valid x
  right : v.Valid y
  home : v.home x = v.home y
  keys : v.keys x = v.keys y
  value? : ∀ key, R (v.value? x key) (v.value? y key)

section Laws

variable {v : MergeView σ} {R : Option Value → Option Value → Prop} {same equal : σ → σ → Prop}
variable {a b c : σ} {away : Prop}

theorem Yields.further {P : σ → Prop} {e : Edit σ Unit} {x : σ} {near : Prop}
    (yields : Yields near e x P) (further : near → away) {Q : σ → Prop} (weaker : ∀ y, P y → Q y) :
    Yields away e x Q :=
  fun l => (yields l).imp further weaker

theorem addAllNew_self (keys : List String) : addAllNew id keys keys = keys :=
  addAllNew_of_known id keys keys fun key isIn => by simpa using isIn

theorem Merges.associate {op : σ → Edit σ Unit} {overwrite : Bool} (merges : Merges v overwrite op)
    (atA : v.Valid a) (atB : v.Valid b) (atC : v.Valid c)
    (combines : Combines R (v.home a) (v.home b))
    (settles : ∀ x y, ReadAlike v R x y → same x y)
    (first : v.home a ≠ .heap → away) (second : v.home b ≠ .heap → away) :
    MergesAssociate away op same a b c := by
  apply (merges a b atA atB).further first
  intro ab intoA
  apply (merges ab c intoA.valid atC).further fun gone => first (intoA.home ▸ gone)
  intro left thenC
  apply (merges b c atB atC).further second
  intro bc intoB
  apply (merges a bc atA intoB.valid).further first
  intro right whole
  apply settles
  refine ⟨thenC.valid, whole.valid, ?_, ?_, fun key => ?_⟩
  · rw [thenC.home, intoA.home, whole.home]
  · rw [thenC.keys, intoA.keys, whole.keys, intoB.keys, addAllNew_addAllNew]
  · rw [thenC.value?, intoA.value?, whole.value?, intoB.value?, intoA.home]
    exact combines.assoc overwrite _ _ _

theorem Merges.intoItself {op : σ → Edit σ Unit} {overwrite : Bool} (merges : Merges v overwrite op)
    (atA : v.Valid a) (combines : Combines R (v.home a) (v.home b))
    (settles : ∀ x y, ReadAlike v R x y → same x y) (first : v.home a ≠ .heap → away) :
    Yields away (op a) a fun x => same x a := by
  apply (merges a a atA atA).further first
  intro x merged
  apply settles
  refine ⟨merged.valid, atA, merged.home, ?_, fun key => ?_⟩
  · rw [merged.keys, addAllNew_self]
  · rw [merged.value?]
    exact combines.self overwrite _

theorem Merges.laws {merge update : σ → Edit σ Unit} (merges : Merges v false merge)
    (updates : Merges v true update) (atA : v.Valid a) (atB : v.Valid b) (atC : v.Valid c)
    (combines : Combines R (v.home a) (v.home b))
    (settles : ∀ x y, ReadAlike v R x y → same x y)
    (levels : ∀ x y, v.Valid x → v.Valid y → (∀ key, R (v.value? x key) (v.value? y key)) →
      equal x y)
    (first : v.home a ≠ .heap → away) (second : v.home b ≠ .heap → away) :
    MergeLaws away merge update same equal a b c where
  merge_assoc := merges.associate atA atB atC combines settles first second
  update_assoc := updates.associate atA atB atC combines settles first second
  merge_self := merges.intoItself atA combines settles first
  update_self := updates.intoItself atA combines settles first
  swap := by
    apply (updates a b atA atB).further first
    intro x updated
    apply (merges b a atB atA).further second
    intro y merged
    apply levels x y updated.valid merged.valid
    intro key
    rw [updated.value?, merged.value?]
    exact combines.swap _ _

theorem Merges.laws_on_heap {merge update : σ → Edit σ Unit} (merges : Merges v false merge)
    (updates : Merges v true update) (atA : v.Valid a) (atB : v.Valid b) (atC : v.Valid c)
    (homeA : v.home a = .heap) (homeB : v.home b = .heap)
    (settles : ∀ x y, ReadAlike v Eq x y → same x y)
    (levels : ∀ x y, v.Valid x → v.Valid y → Agree (v.value? x) (v.value? y) → equal x y) :
    MergeLaws False merge update same equal a b c := by
  have combines : Combines Eq (v.home a) (v.home b) := by
    rw [homeA, homeB]
    exact combines_heap
  apply merges.laws updates atA atB atC combines settles
  · intro x y left right same
    exact levels x y left right fun key => equalAt_of_eq (same key)
  · exact fun gone => gone homeA
  · exact fun gone => gone homeB

end Laws

namespace Object

def mergeView : MergeView (Object Value) := { reader with keys := fun _ => [] }

theorem merges_of_lockstep {overwrite : Bool} {op : Object Value → Edit (Object Value) Unit}
    (lockstep : ∀ source, Lockstep Lists Eq (op source)
      (KeyedMap.assignAll source.members overwrite)) : Merges mergeView overwrite op := by
  intro a b (atA : a.Ordered) (atB : b.Ordered) l
  have lists := atA.lists
  have effect := KeyedMap.assignAll_effect atB.distinct overwrite
    ⟨a.home, Entries.addAllNew ∅ a.members⟩ l trivial
  apply ((lockstep b a _ l lists).ends effect.ends).imp id
  rintro x ⟨d, matched, -, home, values⟩
  refine ⟨matched.ordered, matched.home.trans home, rfl, fun key => ?_⟩
  have known : lookup a.members key = KeyedMap.reader.value? _ key := lists.lookup key
  change lookup x.members key = combined overwrite a.home (lookup a.members key) _
  rw [known]
  exact (matched.lookup key).trans (values key)

theorem settled_of_readAlike {x y : Object Value} (alike : ReadAlike mergeView Eq x y) :
    SameMembers x y :=
  ⟨alike.home, AscendingBy.ext_lookup alike.left alike.right alike.value?⟩

theorem equals_of_ordered {x y : Object Value} (left : x.Ordered) (right : y.Ordered)
    (agree : Agree (lookup x.members) (lookup y.members)) :
    (ObjectForm.sorted x).equals (.sorted y) = true :=
  equalByKey_of_agree agree left right

theorem Ordered.mergeLaws {a b c : Object Value} (atA : a.Ordered) (atB : b.Ordered)
    (atC : c.Ordered) (homeA : a.home = .heap) (homeB : b.home = .heap) :
    MergeLaws False merge mergeOrUpdate SameMembers
      (fun x y => (ObjectForm.sorted x).equals (.sorted y) = true) a b c := by
  have merges : Merges mergeView false merge := merges_of_lockstep merge_lockstep
  have updates : Merges mergeView true mergeOrUpdate := merges_of_lockstep mergeOrUpdate_lockstep
  apply merges.laws_on_heap updates atA atB atC homeA homeB
  · intro x y alike
    exact settled_of_readAlike alike
  · intro x y left right agree
    exact equals_of_ordered left right agree

end Object

namespace PlainList

theorem append_keys (p : PlainList) (key : String) (v : Value) (overwrite : Bool) (l : Ledger) :
    Ends (p.home ≠ .heap) (fun q => q.home = p.home ∧
        q.members.map Member.key = addNew id (p.members.map Member.key) key)
      ((discard (append key v overwrite) : Edit PlainList Unit) ⟨p, l⟩) := by
  apply Ends.discard
  unfold append place position?
  rw [subject_bind, subject_bind]
  dsimp only
  cases found : p.members.findIdx? (·.key = key) with
  | some pos =>
    obtain ⟨inside, same, -⟩ := List.findIdx?_eq_some_iff_getElem.mp found
    have here : (p.members.map Member.key)[pos]? = some key :=
      (key_at_iff _ _ _).mpr ⟨_, List.getElem?_eq_getElem inside, of_decide_eq_true same⟩
    have known : key ∈ p.members.map Member.key := List.mem_of_getElem? here
    have kept : addNew id (p.members.map Member.key) key = p.members.map Member.key :=
      if_pos (by simpa using known)
    rw [kept]
    cases overwrite with
    | false => exact .ok ⟨rfl, rfl⟩
    | true =>
      apply Ends.charge (adoptIn_gives p.home v)
      intro l'
      refine .ok ⟨rfl, ?_⟩
      change (p.members.set pos _).map Member.key = _
      rw [← modify_eq_set here, map_key_modify]
  | none =>
    have fresh := (findIdx?_eq_none_iff_unknown p.members key).mp found
    have put : addNew id (p.members.map Member.key) key = p.members.map Member.key ++ [key] :=
      if_neg (by simpa using fresh)
    apply Ends.charge (adoptIn_gives p.home v)
    intro l'
    refine .ok ⟨rfl, ?_⟩
    change (p.members.take _ ++ _ :: p.members.drop _).map Member.key = _
    rw [put, List.take_length, List.drop_length, List.map_append]
    rfl

theorem appendAll_keys (source : List (Member Value)) (overwrite : Bool) (p : PlainList)
    (l : Ledger) :
    Ends (p.home ≠ .heap) (fun q => q.home = p.home ∧ q.members.map Member.key =
        addAllNew id (p.members.map Member.key) (source.map Member.key))
      (appendAll source overwrite ⟨p, l⟩) := by
  induction source generalizing p l with
  | nil => exact .ok ⟨rfl, rfl⟩
  | cons m source ih =>
    apply (append_keys p m.key m.value overwrite l).bind
    rintro _ q k ⟨home, keys⟩
    have rest := ih q k
    rw [home, keys] at rest
    exact rest

end PlainList

namespace InsertionObject

def mergeView : MergeView (InsertionObject Value) :=
  { reader with keys := fun o => o.members.map Member.key }

theorem merges_of_lockstep {overwrite : Bool}
    {op : InsertionObject Value → Edit (InsertionObject Value) Unit}
    (lockstep : ∀ source, Lockstep Views Eq (op source)
      (PlainList.appendAll source.members overwrite)) : Merges mergeView overwrite op := by
  intro a b (atA : a.Indexed) (atB : b.Indexed) l
  have effect := PlainList.appendAll_effect atB.distinct overwrite a.plain l atA.distinct
  have keys := PlainList.appendAll_keys b.members overwrite a.plain l
  apply ((lockstep b a a.plain l ⟨atA, rfl⟩).ends (effect.ends.and keys)).imp id
  rintro x ⟨_, ⟨sound, rfl⟩, ⟨-, home, values⟩, -, keys⟩
  exact ⟨sound, home, keys, values⟩

theorem settled_of_readAlike {x y : InsertionObject Value} (alike : ReadAlike mergeView Eq x y) :
    SameIndexed x y := by
  have left : x.Indexed := alike.left
  have right : y.Indexed := alike.right
  have members : x.members = y.members := left.distinct.ext_lookup alike.keys alike.value?
  refine ⟨alike.home, members, ?_⟩
  rw [left.index_eq, right.index_eq, members]

theorem Indexed.mergeLaws {a b c : InsertionObject Value} (atA : a.Indexed) (atB : b.Indexed)
    (atC : c.Indexed) (homeA : a.home = .heap) (homeB : b.home = .heap) :
    MergeLaws False merge mergeOrUpdate SameIndexed
      (fun x y => (ObjectForm.inserted x).equals (.inserted y) = true) a b c := by
  have merges : Merges mergeView false merge := merges_of_lockstep merge_lockstep
  have updates : Merges mergeView true mergeOrUpdate := merges_of_lockstep mergeOrUpdate_lockstep
  apply merges.laws_on_heap updates atA atB atC homeA homeB
  · intro x y alike
    exact settled_of_readAlike alike
  · intro x y left right agree
    exact Indexed.equals_of_agree left right agree

end InsertionObject

namespace Value

/-- The value holds an object of its own, the empty one included. -/
def HoldsObject (v : Value) : Prop := v.storage = .object ∨ v.storage = .emptyObject

def held (v : Value) : Object Value := v.asObject?.getD {}

def mergeView : MergeView Value where
  home v := v.held.home
  value? v := lookup v.held.members
  Valid v := v.HoldsObject ∧ v.held.Ordered
  keys _ := []

theorem HoldsObject.forms {v : Value} (holds : v.HoldsObject) :
    (∃ t o, v = object t o) ∨ ∃ t, v = leaf t .emptyObject := by
  unfold HoldsObject at holds
  cases v with
  | object t o => exact .inl ⟨t, o, rfl⟩
  | array | ref => simp [storage] at holds
  | leaf t x =>
    cases x with
    | emptyObject => exact .inr ⟨t, rfl⟩
    | text n s =>
      simp only [storage, Leaf.storage] at holds
      split at holds <;> simp at holds
    | _ => simp [storage, Leaf.storage] at holds

theorem HoldsObject.toObject {v : Value} (holds : v.HoldsObject) : v.toObject = .ok v.held := by
  obtain ⟨t, o, rfl⟩ | ⟨t, rfl⟩ := holds.forms <;> rfl

theorem HoldsObject.asObject? {v : Value} (holds : v.HoldsObject) : v.asObject? = some v.held := by
  obtain ⟨t, o, rfl⟩ | ⟨t, rfl⟩ := holds.forms <;> rfl

theorem HoldsObject.onObject {v : Value} (holds : v.HoldsObject) :
    ∃ t, ∀ (e : Edit (Object Value) Unit) l,
      Value.onObject e ⟨v, l⟩ = Edit.zoom v.held (object t) e ⟨v, l⟩ := by
  obtain ⟨t, o, rfl⟩ | ⟨t, rfl⟩ := holds.forms <;> exact ⟨t, fun _ _ => rfl⟩

theorem merges_of_object {overwrite : Bool} {op : Object Value → Edit (Object Value) Unit}
    {merge : Value → Edit Value Unit} (merges : Merges Object.mergeView overwrite op)
    (through : ∀ source : Value, source.HoldsObject →
      merge source = Value.onObject (op source.held)) :
    Merges mergeView overwrite merge := by
  rintro a b ⟨holds, ordered⟩ ⟨coming, atB⟩ l
  obtain ⟨t, whole⟩ := holds.onObject
  rw [through b coming, whole]
  apply (merges a.held b.held ordered atB l).zoom.imp id
  rintro _ ⟨p, merged, rfl⟩
  exact ⟨⟨.inl rfl, merged.valid⟩, merged.home, rfl, merged.value?⟩

theorem merge_merges : Merges mergeView false merge := by
  apply merges_of_object (Object.merges_of_lockstep Object.merge_lockstep)
  intro source holds
  rw [merge, holds.toObject]

theorem mergeOrUpdate_merges : Merges mergeView true mergeOrUpdate := by
  apply merges_of_object (Object.merges_of_lockstep Object.mergeOrUpdate_lockstep)
  intro source holds
  rw [mergeOrUpdate, holds.toObject]

theorem equals_of_held {x y : Value} (left : mergeView.Valid x) (right : mergeView.Valid y)
    (agree : Agree (lookup x.held.members) (lookup y.held.members)) : x.equals y = true := by
  rw [equals_objects left.1.asObject? right.1.asObject?]
  exact equalByKey_of_agree agree left.2 right.2

/-- Merging an empty object changes nothing, and merging into it gives what comes in. -/
structure Neutral (e : Value) (op : Value → Edit Value Unit) (a : Value) : Prop where
  right : Yields False (op e) a fun x => x.equals a = true
  left : Yields False (op a) e fun x => x.equals a = true

theorem combined_nothing (overwrite : Bool) (x : Option Value) :
    combined overwrite .heap none x = x := by
  rw [combined_heap, Option.or_none, Option.none_or, ite_self]

theorem neutral {overwrite : Bool} {op : Value → Edit Value Unit}
    (merges : Merges mergeView overwrite op)
    (idle : op emptyObject = Value.onObject (pure ())) {a : Value} (valid : mergeView.Valid a) :
    Neutral emptyObject op a where
  right := by
    obtain ⟨t, whole⟩ := valid.1.onObject
    intro l
    rw [idle, whole]
    have same : mergeView.Valid (object t a.held) := ⟨.inl rfl, valid.2⟩
    exact .ok (equals_of_held same valid fun key => rel_self _)
  left := by
    have empty : mergeView.Valid emptyObject := ⟨.inr rfl, .nil⟩
    apply (merges emptyObject a empty valid).further fun gone => gone rfl
    intro x merged
    apply equals_of_held merged.valid valid
    intro key
    have found : lookup x.held.members key = lookup a.held.members key :=
      (merged.value? key).trans (combined_nothing overwrite _)
    rw [found]
    exact rel_self _

theorem mergeLaws {a b c : Value} (atA : mergeView.Valid a) (atB : mergeView.Valid b)
    (atC : mergeView.Valid c) :
    MergeLaws (a.held.home ≠ .heap ∨ b.held.home ≠ .heap) merge mergeOrUpdate
      (fun x y => x.equals y = true) (fun x y => x.equals y = true) a b c := by
  apply merge_merges.laws mergeOrUpdate_merges atA atB atC (combines_equal _ _)
  · intro x y alike
    exact equals_of_held alike.left alike.right alike.value?
  · intro x y left right same
    exact equals_of_held left right same
  · exact .inl
  · exact .inr

theorem Built.mergeView {v : Value} (built : v.Built) (holds : v.HoldsObject) :
    Value.mergeView.Valid v :=
  ⟨holds, (asObject?_wellFormed built.wellFormed holds.asObject?).1⟩

end Value

/-- The laws of merging, for both kinds of objects on the heap and for values that hold objects. -/
theorem merging_is_lawful :
    (∀ a b c : Object Value, a.Built → b.Built → c.Built → a.home = .heap → b.home = .heap →
      MergeLaws False Object.merge Object.mergeOrUpdate Object.SameMembers
        (fun x y => (ObjectForm.sorted x).equals (.sorted y) = true) a b c) ∧
    (∀ a b c : InsertionObject Value, a.Built → b.Built → c.Built → a.home = .heap →
      b.home = .heap → MergeLaws False InsertionObject.merge InsertionObject.mergeOrUpdate
        InsertionObject.SameIndexed
        (fun x y => (ObjectForm.inserted x).equals (.inserted y) = true) a b c) ∧
    ∀ a b c : Value, a.Built → b.Built → c.Built → a.HoldsObject → b.HoldsObject → c.HoldsObject →
      MergeLaws (a.held.home ≠ .heap ∨ b.held.home ≠ .heap) Value.merge Value.mergeOrUpdate
        (fun x y => x.equals y = true) (fun x y => x.equals y = true) a b c ∧
      Value.Neutral .emptyObject Value.merge a ∧
        Value.Neutral .emptyObject Value.mergeOrUpdate a := by
  refine ⟨?_, ?_, ?_⟩
  · intro a b c atA atB atC homeA homeB
    exact atA.ordered.mergeLaws atB.ordered atC.ordered homeA homeB
  · intro a b c atA atB atC homeA homeB
    exact atA.indexed.mergeLaws atB.indexed atC.indexed homeA homeB
  · intro a b c atA atB atC holdsA holdsB holdsC
    have valid := atA.mergeView holdsA
    refine ⟨Value.mergeLaws valid (atB.mergeView holdsB) (atC.mergeView holdsC), ?_, ?_⟩
    · exact Value.neutral Value.merge_merges rfl valid
    · exact Value.neutral Value.mergeOrUpdate_merges rfl valid

theorem merging_is_lawful_sample :
    (Object.sampleTwo.Built ∧ sampleForward.Built ∧ MergeLaws False Object.merge
      Object.mergeOrUpdate Object.SameMembers
      (fun x y => (ObjectForm.sorted x).equals (.sorted y) = true)
      Object.sampleTwo sampleForward Object.sampleTwo) ∧
    (sampleLetters.Built ∧ sampleBackward.Built ∧ MergeLaws False InsertionObject.merge
      InsertionObject.mergeOrUpdate InsertionObject.SameIndexed
      (fun x y => (ObjectForm.inserted x).equals (.inserted y) = true)
      sampleLetters sampleBackward sampleLetters) ∧
    (Value.ofObject sampleForward).HoldsObject ∧ Value.emptyObject.HoldsObject ∧
      MergeLaws ((Value.ofObject sampleForward).held.home ≠ .heap ∨
          Value.emptyObject.held.home ≠ .heap) Value.merge Value.mergeOrUpdate
        (fun x y => x.equals y = true) (fun x y => x.equals y = true)
        (.ofObject sampleForward) .emptyObject (.ofObject sampleForward) := by
  obtain ⟨sorted, inserted, values⟩ := merging_is_lawful
  have two := Object.sampleTwo_built
  have letters := sampleLetters_built
  have backward : sampleBackward.Built := sampleBackward_built
  have backward_home : sampleBackward.home = .heap := InsertionObject.dedup_home (.empty .heap) _
  have forward : sampleForward.Built := .run _ [] (.empty .heap) trivial sampleEntries_built
  have made := sampleForward_built.1
  have holds : (Value.ofObject sampleForward).HoldsObject := .inl rfl
  have empty : Value.emptyObject.HoldsObject := .inr rfl
  refine ⟨⟨two, forward, ?_⟩, ⟨letters, backward, ?_⟩, holds, empty, ?_⟩
  · exact sorted _ _ _ two forward two rfl rfl
  · exact inserted _ _ _ letters backward letters rfl backward_home
  · exact (values _ _ _ made (.leaf _ _) made holds empty holds).1

end DocTree
