import DocTree.Proofs.Keeping
import DocTree.Proofs.Operations
import DocTree.Sequence.Operation

namespace DocTree

/-- A property of values in containers, by the home of the container; a value on its own counts
as one on the heap. It comes with being taken in, and stays with leaving and with giving back
room. -/
structure Lasting (P : Home → Value → Prop) : Prop where
  housed : ∀ {home v}, P .heap v → P home (v.housedIn home)
  freed : ∀ {home v}, P home v → P .heap v
  shrunk : ∀ {home v}, P home v → P home v.shrinkToFit

section Adoption

variable {σ : Type} {I : σ → Prop} {P : Home → Value → Prop} {home here : Home}

theorem Lasting.adoptIn (lasting : Lasting P) (onRefusal : Refusal → Failure) (same : here = home)
    {v : Value} (holds : P .heap v) :
    Keeps I (P home) (Edit.charge onRefusal (v.adoptIn here)) := by
  subst same
  exact .charge onRefusal (.adoptIn here v) fun _ _ _ adopted =>
    Value.adoptIn_ok adopted ▸ lasting.housed holds

theorem Lasting.adoptAllIn (lasting : Lasting P) (onRefusal : Refusal → Failure)
    (same : here = home) {vs : List Value} (holds : ∀ v ∈ vs, P .heap v) :
    Keeps I (fun ws => ∀ w ∈ ws, P home w) (Edit.charge onRefusal (Value.adoptAllIn here vs)) := by
  subst same
  refine .charge onRefusal (.adoptAllIn here vs) fun ws l l' adopted => ?_
  cases here with
  | heap =>
    cases adopted
    exact holds
  | arena n =>
    rw [Value.adoptItems_ok adopted, Value.housedItems_eq_map]
    exact List.forall_mem_map.mpr fun v isIn => lasting.housed (holds v isIn)

end Adoption

def Answer.Holds (P : Value → Prop) : Answer → Prop
  | value v => P v
  | value? v => IfSome P v
  | member m => P m.value
  | _ => True

theorem Keeps.done {σ : Type} {I : σ → Prop} {J : Unit → Prop} {P : Value → Prop}
    {e : Edit σ Unit} (keeps : Keeps I J e) : Keeps I (Answer.Holds P) (done e) :=
  keeps.bind fun _ _ => .pure trivial

namespace Sequence

def Holds (P : Home → Value → Prop) (home : Home) (s : Sequence Value) : Prop :=
  s.home = home ∧ ∀ v ∈ s.items, P home v

variable {P : Home → Value → Prop} {home : Home} {β : Type} {J : β → Prop}

theorem Holds.own {s : Sequence Value} (holds : s.Holds P home) : ∀ v ∈ s.items, P s.home v :=
  holds.1.symm ▸ holds.2

theorem Holds.append {s : Sequence Value} (old : s.Holds P home) {vs : List Value}
    (new : ∀ v ∈ vs, P home v) : (s.withItems (s.items ++ vs)).Holds P home :=
  ⟨old.1, List.forall_mem_append.mpr ⟨old.2, new⟩⟩

theorem push_keeps (lasting : Lasting P) {v : Value} (holds : P .heap v) :
    Keeps (Holds P home) (fun _ => True) (push v) :=
  Keeps.subject.bind fun _ here => (lasting.adoptIn _ here.1 holds).bind fun _ new =>
    .update fun _ old => old.append (List.forall_mem_singleton.mpr new)

theorem tryPush_keeps (lasting : Lasting P) {v : Value} (holds : P .heap v) :
    Keeps (Holds P home) (fun _ => True) (tryPush v) :=
  Keeps.subject.bind fun _ here => (lasting.adoptIn _ here.1 holds).bind fun _ new =>
    .update fun _ old => old.append (List.forall_mem_singleton.mpr new)

theorem pop_keeps : Keeps (Holds P home) (IfSome (P home)) pop :=
  Keeps.subject.bind fun _ old =>
    (Keeps.put ⟨old.1, fun v isIn => old.2 v (List.dropLast_subset _ isIn)⟩).bind
      fun _ _ => .pure fun v last => old.2 v (List.mem_of_getLast? last)

theorem insert_keeps (lasting : Lasting P) (pos : Nat) {v : Value} (holds : P .heap v) :
    Keeps (Holds P home) (fun _ => True) (insert pos v) := by
  refine Keeps.subject.bind fun _ here => (lasting.adoptIn _ here.1 holds).bind fun w new =>
    Keeps.subject.bind fun s old => ?_
  have inserted : ∀ u ∈ s.items.insertIdx pos w, P home u := by
    intro u isIn
    rcases List.eq_or_mem_of_mem_insertIdx isIn with rfl | known
    · exact new
    · exact old.2 u known
  split
  · exact .fault_bind
  · exact (Keeps.update fun _ now => ⟨now.1, inserted⟩).bind fun _ _ => .pure trivial

theorem insertRange_keeps (lasting : Lasting P) (pos : Nat) {vs : List Value}
    (holds : ∀ v ∈ vs, P .heap v) : Keeps (Holds P home) (fun _ => True) (insertRange pos vs) := by
  refine Keeps.subject.bind fun s old => ?_
  split
  · exact .fault_bind
  · refine (Keeps.subject.bind fun _ here => lasting.adoptAllIn _ here.1 holds).bind fun ws new =>
      (Keeps.update fun _ now => ⟨now.1, ?_⟩).bind fun _ _ => .pure trivial
    refine List.forall_mem_append.mpr ⟨List.forall_mem_append.mpr ⟨?_, new⟩, ?_⟩
    · exact fun v isIn => old.2 v (List.mem_of_mem_take isIn)
    · exact fun v isIn => old.2 v (List.mem_of_mem_drop isIn)

theorem erase_keeps (pos : Nat) : Keeps (Holds P home) (P home) (erase pos) := by
  refine Keeps.subject.bind fun s old => ?_
  split
  · rename_i v here
    have rest : ∀ u ∈ s.items.eraseIdx pos, P home u :=
      fun u isIn => old.2 u (List.mem_of_mem_eraseIdx isIn)
    exact (Keeps.put ⟨old.1, rest⟩).bind fun _ _ => .pure (old.2 v (List.mem_of_getElem? here))
  · exact .fault _

theorem eraseRange_keeps (low high : Bound) :
    Keeps (Holds P home) (fun _ => True) (eraseRange low high) :=
  Keeps.subject.bind fun _ old =>
    (Keeps.ofExcept (J := fun _ => True) fun _ _ => trivial).bind fun (_, _) _ =>
      .put ⟨old.1, fun v isIn => (List.mem_append.mp isIn).elim
        (fun front => old.2 v (List.mem_of_mem_take front))
        (fun back => old.2 v (List.mem_of_mem_drop back))⟩

theorem editItem?_keeps (i : Nat) {e : Edit Value β} (inner : Keeps (P home) J e) :
    Keeps (Holds P home) (IfSome J) (editItem? i e) :=
  Keeps.subject.bind fun _ old => inner.zoom? (fun v here => old.2 v (List.mem_of_getElem? here))
    fun _ new => ⟨old.1, fun u isIn =>
      (List.mem_or_eq_of_mem_set isIn).elim (old.2 u) (fun same => same ▸ new)⟩

theorem editAt_keeps (i : Nat) {e : Edit Value β} (inner : Keeps (P home) J e) :
    Keeps (Holds P home) J (editAt i e) := by
  refine Keeps.subject.bind fun _ _ => (editItem?_keeps i inner).bind fun answer holds => ?_
  split
  · rename_i x
    exact .pure (holds x rfl)
  · exact .fail _

theorem editItem_keeps (i : Nat) {e : Edit Value β} (inner : Keeps (P home) J e) :
    Keeps (Holds P home) J (editItem i e) := by
  refine (editItem?_keeps i inner).bind fun answer holds => ?_
  split
  · rename_i x
    exact .pure (holds x rfl)
  · exact .fault _

theorem emplaceBack_keeps (lasting : Lasting P) {v : Value} (holds : P .heap v)
    {e : Edit Value β} (inner : Keeps (P home) J e) :
    Keeps (Holds P home) J (emplaceBack v e) :=
  (push_keeps lasting holds).bind fun _ _ => Keeps.subject.bind fun _ _ => editItem_keeps _ inner

theorem resize_keeps (lasting : Lasting P) (n : Nat) {v : Value} (holds : P .heap v) :
    Keeps (Holds P home) (fun _ => True) (resize n v) :=
  Keeps.subject.bind fun _ here => (lasting.adoptIn _ here.1 holds).bind fun _ new =>
    (Keeps.checkRoom n).bind fun _ _ => Keeps.subject.bind fun _ old =>
      .update fun _ now => ⟨now.1, List.forall_mem_append.mpr
        ⟨fun u isIn => old.2 u (List.mem_of_mem_take isIn),
          fun _ isIn => List.eq_of_mem_replicate isIn ▸ new⟩⟩

theorem consMade_keeps (lasting : Lasting P) {make : Nat → Charging Value}
    (forward : ∀ i, Forward (make i)) (made : ∀ i l v m, make i l = .ok v m → P .heap v)
    (n i : Nat) :
    Keeps (fun vs => ∀ v ∈ vs, P home v) (fun _ => True) (consMade home make n i) := by
  induction n generalizing i with
  | zero => exact .pure trivial
  | succ n ih =>
    refine .bind (.charge (J := P home) _ (.bind (forward i) fun v => .adoptIn home v) ?_)
      fun v new => .bind (.update fun vs old => List.forall_mem_cons.mpr ⟨new, old⟩)
        fun _ _ => ih (i + 1)
    intro v l m adopted
    obtain ⟨w, k, first, rest⟩ := bind_eq_ok adopted
    exact Value.adoptIn_ok rest ▸ lasting.housed (made i l w k first)

theorem resizeWith_keeps (lasting : Lasting P) (n : Nat) {make : Nat → Charging Value}
    (forward : ∀ i, Forward (make i)) (made : ∀ i l v m, make i l = .ok v m → P .heap v) :
    Keeps (Holds P home) (fun _ => True) (resizeWith n make) := by
  refine .bind (.checkRoom n) fun _ _ => Keeps.subject.bind fun s old => ?_
  obtain ⟨rfl, items⟩ := old
  refine (consMade_keeps lasting forward made _ 0).zoom (List.forall_mem_nil _)
    fun new holds => ⟨rfl, ?_⟩
  refine List.forall_mem_append.mpr ⟨?_, ?_⟩
  · exact fun v isIn => items v (List.mem_of_mem_take isIn)
  · exact fun v isIn => holds v (List.mem_reverse.mp isIn)

theorem extend_keeps (lasting : Lasting P) {vs : List Value} (holds : ∀ v ∈ vs, P .heap v) :
    Keeps (Holds P home) (fun _ => True) (extend vs) :=
  (Keeps.subject.bind fun _ here => lasting.adoptAllIn _ here.1 holds).bind fun _ new =>
    .update fun _ old => old.append new

theorem clear_keeps : Keeps (Holds P home) (fun _ => True) clear :=
  .update fun _ old => ⟨old.1, nofun⟩

theorem reserve_keeps (additional : Nat) :
    Keeps (Holds P home) (fun _ => True) (reserve additional) :=
  Keeps.subject.bind fun _ old => (Keeps.checkRoom _).bind fun _ _ => .put old

theorem shrinkToFit_keeps (lasting : Lasting P) :
    Keeps (Holds P home) (fun _ => True) (Edit.update Sequence.shrinkToFit) := by
  refine .update fun s old => ⟨old.1, ?_⟩
  change ∀ v ∈ Value.shrinkItems s.items, P home v
  rw [Value.shrinkItems_eq_map]
  exact List.forall_mem_map.mpr fun v isIn => lasting.shrunk (old.2 v isIn)

end Sequence

def SequenceOp.values : SequenceOp → List Value
  | push v | tryPush v | insert _ v | assignAt _ v | assignItem _ v | resize _ v => [v]
  | insertRange _ vs | extend vs => vs
  | _ => []

def SequenceOp.Inserting : SequenceOp → Prop
  | assignAt .. | assignItem .. => False
  | _ => True

theorem SequenceOp.run_keeps {P : Home → Value → Prop} {home : Home} (lasting : Lasting P)
    (op : SequenceOp) (given : ∀ v ∈ op.values, P .heap v)
    (placed : op.Inserting ∨ ∀ v, P .heap v → P home v) :
    Keeps (Sequence.Holds P home) (Answer.Holds (P home)) op.run := by
  open Sequence in
  cases op with
  | push v => exact (push_keeps lasting (given v List.mem_cons_self)).done
  | tryPush v => exact (tryPush_keeps lasting (given v List.mem_cons_self)).done
  | pop => exact pop_keeps.bind fun _ holds => .pure holds
  | insert pos v =>
    exact (insert_keeps lasting pos (given v List.mem_cons_self)).bind fun _ _ => .pure trivial
  | insertRange pos vs =>
    exact (insertRange_keeps lasting pos given).bind fun _ _ => .pure trivial
  | erase pos => exact (erase_keeps pos).bind fun _ holds => .pure holds
  | eraseRange low high => exact (eraseRange_keeps low high).done
  | assignAt pos v =>
    have holds := placed.elim False.elim fun free => free v (given v List.mem_cons_self)
    exact (editAt_keeps pos (Keeps.put holds)).done
  | assignItem pos v =>
    have holds := placed.elim False.elim fun free => free v (given v List.mem_cons_self)
    exact (editItem_keeps pos (Keeps.put holds)).done
  | resize n v => exact (resize_keeps lasting n (given v List.mem_cons_self)).done
  | extend vs => exact (extend_keeps lasting given).done
  | clear => exact clear_keeps.done
  | reserve additional => exact (reserve_keeps additional).done
  | shrinkToFit => exact (shrinkToFit_keeps lasting).done
  | sort =>
    exact (Keeps.update fun s old =>
      ⟨old.1, fun v isIn => old.2 v (List.mem_mergeSort.mp isIn)⟩).done
  | reverse =>
    exact (Keeps.update fun s old =>
      ⟨old.1, fun v isIn => old.2 v (List.mem_reverse.mp isIn)⟩).done

end DocTree
