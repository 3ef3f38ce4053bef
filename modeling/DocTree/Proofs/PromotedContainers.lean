import DocTree.Object.Edit
import DocTree.Proofs.EmptyObjects
import DocTree.Proofs.Lockstep
import DocTree.Sequence.Edit

namespace DocTree

section Lists

variable {α β : Type} {r : α → β → Prop} {xs : List α} {ys : List β} {x : α} {y : β}

theorem forall₂_insertIdx (related : List.Forall₂ r xs ys) (new : r x y) (i : Nat) :
    List.Forall₂ r (xs.insertIdx i x) (ys.insertIdx i y) := by
  induction related generalizing i with
  | nil =>
    cases i with
    | zero => exact .cons new .nil
    | succ i => exact .nil
  | cons head tail ih =>
    cases i with
    | zero => exact .cons new (.cons head tail)
    | succ i => exact .cons head (ih i)

theorem forall₂_eraseIdx (related : List.Forall₂ r xs ys) (i : Nat) :
    List.Forall₂ r (xs.eraseIdx i) (ys.eraseIdx i) := by
  induction related generalizing i with
  | nil => exact .nil
  | cons head tail ih =>
    cases i with
    | zero => exact tail
    | succ i => exact .cons head (ih i)

theorem forall₂_modify {f : α → α} {g : β → β} (related : List.Forall₂ r xs ys)
    (changed : ∀ x y, r x y → r (f x) (g y)) (i : Nat) :
    List.Forall₂ r (xs.modify i f) (ys.modify i g) := by
  induction related generalizing i with
  | nil => cases i <;> exact .nil
  | cons head tail ih =>
    cases i with
    | zero => exact .cons (changed _ _ head) tail
    | succ i => exact .cons head (ih i)

theorem forall₂_set (related : List.Forall₂ r xs ys) (new : r x y) (i : Nat) :
    List.Forall₂ r (xs.set i x) (ys.set i y) := by
  induction related generalizing i with
  | nil => exact .nil
  | cons head tail ih =>
    cases i with
    | zero => exact .cons new tail
    | succ i => exact .cons head (ih i)

theorem forall₂_replicate (same : r x y) (n : Nat) :
    List.Forall₂ r (List.replicate n x) (List.replicate n y) := by
  induction n with
  | zero => exact .nil
  | succ n ih => exact .cons same ih

end Lists

theorem checkRoom_eq {σ : Type} (n : Nat) (s : Scene σ) : checkRoom n s =
    if n < roomLimit then .ok () s else .error (.fault .noRoom) s := by
  unfold checkRoom haveRoom Edit.orExhausted Edit.charge
  by_cases fits : n < roomLimit
  · simp only [fits, if_true]
    rfl
  · simp only [fits, if_false]
    rfl

section Adoption

variable {counts : Prop} {v w : Value}

theorem payloads_compatible (n : Nat) :
    Value.Compatible counts (fun v w => v.payloads n = w.payloads n) where
  leaf _ _ := rfl
  empty t o _ _ bare := by
    simp only [Value.payloads, Leaf.payloads, bare, Value.memberPayloads, ite_self]
  array _ s u same := by
    have items := map_eq_of_forall₂ same.items
    simp only [Value.payloads, same.home, Value.itemPayloads_eq_flatten, items]
  object _ o p same := by
    have members := map_eq_of_forall₂ (same.members.imp fun _ _ alike => alike.2)
    simp only [Value.payloads, same.home, Value.memberPayloads_eq_flatten, members]
  ref _ _ _ _ := rfl

theorem housed_compatible (n : Nat) : Value.Compatible counts (fun v w =>
    Value.Promoted counts v w ∧ Value.Promoted counts (v.housed n) (w.housed n)) where
  leaf t x := ⟨.leaf t x, .refl counts _⟩
  empty t o home room bare := by
    have elsewhere : o.home ≠ .arena n := by
      rw [home]
      exact Home.noConfusion
    refine ⟨.empty t home room bare, ?_⟩
    simp only [Value.housed, elsewhere, if_false, bare, Value.housedMembers]
    exact .object t rfl (fun counted => (room counted).symm) .nil
  array t s u same := by
    have parts := Value.promoted_compatible.array t (same.imp fun _ _ alike => alike.1)
    refine ⟨parts, ?_⟩
    simp only [Value.housed, same.home]
    split
    · exact parts
    · refine .array t rfl same.room (.of_forall₂ ?_)
      simp only [Value.housedItems_eq_map, List.forall₂_map_left_iff, List.forall₂_map_right_iff]
      exact same.items.imp fun _ _ alike => alike.2
  object t o p same := by
    have parts := Value.promoted_compatible.object t (same.imp fun _ _ alike => alike.1)
    refine ⟨parts, ?_⟩
    simp only [Value.housed, same.home]
    split
    · exact parts
    · refine .object t rfl same.room (.of_forall₂ ?_)
      simp only [Value.housedMembers_eq_map, List.forall₂_map_left_iff,
        List.forall₂_map_right_iff]
      exact same.members.imp fun _ _ alike => ⟨alike.1, alike.2.2⟩
  ref t _ _ same := ⟨.ref t same.1, .ref t same.1⟩

theorem Value.Promoted.adoptIn (promoted : Value.Promoted counts v w) (home : Home) :
    Abreast (Value.Promoted counts) (v.adoptIn home) (w.adoptIn home) := by
  cases home with
  | heap => exact .pure promoted
  | arena n =>
    have sizes : v.payloads n = w.payloads n := (payloads_compatible n).relates promoted
    have housed := ((housed_compatible n).relates promoted).2
    change Abreast _ (v.adopt n) (w.adopt n)
    simp only [Value.adopt_eq, sizes]
    exact .bind (.refl _) fun _ _ _ => .pure housed

theorem Value.Promoted.lockstep {σ τ : Type} {R : σ → τ → Prop}
    (promoted : Value.Promoted counts v w) (onRefusal : Refusal → Failure) {h k : Home}
    (same : h = k) : Lockstep R (Value.Promoted counts) (Edit.charge onRefusal (v.adoptIn h))
      (Edit.charge onRefusal (w.adoptIn k)) := by
  subst same
  exact .charge onRefusal (promoted.adoptIn h)

end Adoption

open Value (Promoted)

variable {counts : Prop} {v w : Value} {α β : Type} {A : α → β → Prop} {e : Edit Value α}
variable {f : Edit Value β}

namespace Sequence

abbrev Alike (counts : Prop) : Sequence Value → Sequence Value → Prop :=
  Paired counts (Promoted counts)

theorem Paired.length {r : Value → Value → Prop} {s u : Sequence Value}
    (same : s.Paired counts r u) : s.length = u.length := same.items.length_eq

theorem Paired.withItems {r : Value → Value → Prop} {s u : Sequence Value} {vs ws : List Value}
    (same : s.Paired counts r u) (items : List.Forall₂ r vs ws) :
    (s.withItems vs).Paired counts r (u.withItems ws) := by
  refine ⟨same.home, fun counted => ?_, items⟩
  simp only [Sequence.withItems, same.room counted, items.length_eq]

theorem push_paired (promoted : Promoted counts v w) :
    Lockstep (Alike counts) Eq (push v) (push w) :=
  Lockstep.subject.bind fun _ _ same => (promoted.lockstep _ same.home).bind fun _ _ new =>
    .update fun _ _ same => same.withItems (List.rel_append same.items (.cons new .nil))

theorem insert_paired (pos : Nat) (promoted : Promoted counts v w) :
    Lockstep (Alike counts) Eq (insert pos v) (insert pos w) := by
  refine Lockstep.subject.bind fun _ _ same => (promoted.lockstep _ same.home).bind fun _ _ new =>
    Lockstep.subject.bind fun s u same => ?_
  have items := forall₂_insertIdx same.items new pos
  simp only [same.length]
  split
  · exact .fault_bind
  · refine (Lockstep.update fun _ _ now => now.withItems items).bind fun _ _ _ => .pure rfl

theorem erase_paired (pos : Nat) :
    Lockstep (Alike counts) (Promoted counts) (erase pos) (erase pos) := by
  refine Lockstep.subject.bind fun s u same => ?_
  obtain ⟨first, second⟩ | ⟨v, w, first, second, here⟩ :=
    rel_cases (getElem?_rel same.items pos) <;> simp only [first, second]
  · exact .fault _
  · have rest := forall₂_eraseIdx same.items pos
    exact (Lockstep.put ⟨same.home, same.room, rest⟩).bind fun _ _ _ => .pure here

theorem resize_paired (n : Nat) (promoted : Promoted counts v w) :
    Lockstep (Alike counts) Eq (resize n v) (resize n w) := by
  refine Lockstep.subject.bind fun _ _ same => (promoted.lockstep _ same.home).bind fun _ _ new =>
    (Lockstep.checkRoom n).bind fun _ _ _ => Lockstep.subject.bind fun s u same => ?_
  simp only [same.length]
  exact .update fun _ _ now =>
    now.withItems (List.rel_append (List.forall₂_take n same.items) (forall₂_replicate new _))

theorem editItem?_paired (i : Nat) (inner : Lockstep (Promoted counts) A e f) :
    Lockstep (Alike counts) (Option.Rel A) (editItem? i e) (editItem? i f) :=
  Lockstep.subject.bind fun _ _ same => inner.zoom? (getElem?_rel same.items i)
    fun _ _ new => ⟨same.home, same.room, forall₂_set same.items new i⟩

theorem editAt_paired (i : Nat) (inner : Lockstep (Promoted counts) A e f) :
    Lockstep (Alike counts) A (editAt i e) (editAt i f) := by
  refine Lockstep.subject.bind fun _ _ same => (editItem?_paired i inner).bind fun _ _ answer => ?_
  cases answer with
  | none =>
    simp only [same.length]
    exact .fail _
  | some alike => exact .pure alike

theorem editItem_paired (i : Nat) (inner : Lockstep (Promoted counts) A e f) :
    Lockstep (Alike counts) A (editItem i e) (editItem i f) := by
  refine (editItem?_paired i inner).bind fun _ _ answer => ?_
  cases answer with
  | none => exact .fault _
  | some alike => exact .pure alike

theorem reserve_paired (additional : Nat) :
    Lockstep (Alike counts) Eq (reserve additional) (reserve additional) := by
  refine Lockstep.subject.bind fun s u same => ?_
  simp only [same.length]
  refine (Lockstep.checkRoom _).bind fun _ _ _ => .put ⟨same.home, fun counted => ?_, same.items⟩
  simp only [same.room counted]

end Sequence

namespace Object

abbrev Alike (counts : Prop) : Object Value → Object Value → Prop :=
  Paired counts (Promoted counts)

section Forms

variable {r : Value → Value → Prop} {o p : Object Value}

theorem Paired.keyAt? (same : o.Paired counts r p) (pos : Nat) : o.keyAt? pos = p.keyAt? pos := by
  simp only [Object.keyAt?, ← List.getElem?_map, same.keys]

theorem Paired.lowerBound (same : o.Paired counts r p) (key : String) :
    o.lowerBound 0 key = p.lowerBound 0 key := Object.lowerBound_congr same.keys key

theorem Paired.assignAt (same : o.Paired counts r p) (new : r v w) (pos : Nat) :
    (o.assignAt pos v).Paired counts r (p.assignAt pos w) where
  home := same.home
  room := same.room
  members := by
    apply forall₂_modify same.members
    exact fun _ _ alike => ⟨alike.1, new⟩

theorem Paired.insertAt (same : o.Paired counts r p) (new : r v w) (pos : Nat) (key : String) :
    (o.insertAt pos ⟨key, v⟩).Paired counts r (p.insertAt pos ⟨key, w⟩) := by
  have members := forall₂_insertIdx same.members (x := ⟨key, v⟩) (y := ⟨key, w⟩) ⟨rfl, new⟩ pos
  refine ⟨same.home, fun counted => ?_, members⟩
  simp only [Object.insertAt, Object.withMembers, same.room counted, members.length_eq]

end Forms

theorem place_paired {pos : Nat} (key : String) (promoted : Promoted counts v w)
    (overwrite : Bool) :
    Lockstep (Alike counts) Eq (place pos key v overwrite) (place pos key w overwrite) := by
  refine Lockstep.subject.bind fun o p same => ?_
  simp only [same.keyAt? pos]
  split
  · split
    · exact (promoted.lockstep _ same.home).bind fun _ _ new =>
        (Lockstep.update fun _ _ now => now.assignAt new pos).bind fun _ _ _ => .pure rfl
    · exact .pure rfl
  · exact (promoted.lockstep _ same.home).bind fun _ _ new =>
      (Lockstep.update fun _ _ now => now.insertAt new pos key).bind fun _ _ _ => .pure rfl

theorem insertOrAssign_paired (key : String) (promoted : Promoted counts v w) :
    Lockstep (Alike counts) Eq (insertOrAssign key v) (insertOrAssign key w) := by
  refine Lockstep.subject.bind fun o p same => ?_
  simp only [same.lowerBound key]
  exact place_paired key promoted true

theorem tryEmplace_paired (key : String) (promoted : Promoted counts v w) :
    Lockstep (Alike counts) Eq (tryEmplace key v) (tryEmplace key w) := by
  refine Lockstep.subject.bind fun o p same => ?_
  simp only [same.lowerBound key]
  exact place_paired key promoted false

theorem merge_paired {source other : Object Value} (sources : Alike counts source other) :
    Lockstep (Alike counts) Eq (merge source) (merge other) :=
  .forM₂ sources.members fun m n alike => by
    simp only [alike.1]
    exact (tryEmplace_paired n.key alike.2).discard

theorem mergeOrUpdate_paired {source other : Object Value} (sources : Alike counts source other) :
    Lockstep (Alike counts) Eq (mergeOrUpdate source) (mergeOrUpdate other) :=
  .forM₂ sources.members fun m n alike => by
    simp only [alike.1]
    exact (insertOrAssign_paired n.key alike.2).discard

theorem eraseAt_paired (pos : Nat) :
    Lockstep (Alike counts) (Named (Promoted counts)) (eraseAt pos) (eraseAt pos) := by
  refine Lockstep.subject.bind fun o p same => ?_
  obtain ⟨first, second⟩ | ⟨m, n, first, second, here⟩ :=
    rel_cases (getElem?_rel same.members pos) <;> simp only [first, second]
  · exact .fault _
  · have rest := forall₂_eraseIdx same.members pos
    exact (Lockstep.put ⟨same.home, same.room, rest⟩).bind fun _ _ _ => .pure here

theorem erase_paired (key : String) :
    Lockstep (Alike counts) (Option.Rel (Promoted counts)) (erase key) (erase key) := by
  refine Lockstep.subject.bind fun o p same => ?_
  simp only [same.find? key]
  split
  · exact (eraseAt_paired _).bind fun _ _ here => .pure (.some here.2)
  · exact .pure .none

theorem editValue?_paired (pos : Nat) (inner : Lockstep (Promoted counts) A e f) :
    Lockstep (Alike counts) (Option.Rel A) (editValue? pos e) (editValue? pos f) := by
  refine Lockstep.subject.bind fun o p same => inner.zoom? ?_ fun _ _ new => same.assignAt new pos
  obtain ⟨first, second⟩ | ⟨m, n, first, second, here⟩ :=
    rel_cases (getElem?_rel same.members pos) <;>
    simp only [first, second, Option.map_none, Option.map_some]
  · exact .none
  · exact .some here.2

theorem editAt_paired (pos : Nat) (inner : Lockstep (Promoted counts) A e f) :
    Lockstep (Alike counts) A (editAt pos e) (editAt pos f) := by
  refine Lockstep.subject.bind fun _ _ same => (editValue?_paired pos inner).bind
    fun _ _ answer => ?_
  cases answer with
  | none =>
    simp only [same.length]
    exact .fail _
  | some alike => exact .pure alike

theorem editKey?_paired (key : String) (inner : Lockstep (Promoted counts) A e f) :
    Lockstep (Alike counts) (Option.Rel A) (editKey? key e) (editKey? key f) := by
  refine Lockstep.subject.bind fun o p same => ?_
  simp only [same.find? key]
  split
  · exact editValue?_paired _ inner
  · exact .pure .none

theorem reserve_eq (o : Object Value) (additional : Nat) (l : Ledger) :
    reserve additional ⟨o, l⟩ = if o.length + additional < roomLimit then
      .ok () ⟨{ o with capacity := max o.capacity (o.length + additional) }, l⟩
      else .error (.fault .noRoom) ⟨o, l⟩ := by
  unfold reserve
  rw [subject_bind]
  have checked := checkRoom_eq (o.length + additional) (⟨o, l⟩ : Scene (Object Value))
  split
  · rename_i fits
    rw [if_pos fits] at checked
    exact bind_of_ok checked
  · rename_i full
    rw [if_neg full] at checked
    exact bind_of_error checked

theorem reserve_paired (additional : Nat) :
    Lockstep (Alike counts) Eq (reserve additional) (reserve additional) := by
  refine Lockstep.subject.bind fun o p same => ?_
  simp only [same.length]
  refine (Lockstep.checkRoom _).bind fun _ _ _ =>
    .put ⟨same.home, fun counted => ?_, same.members⟩
  simp only [same.room counted]

end Object

end DocTree
