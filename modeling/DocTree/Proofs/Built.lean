import DocTree.Proofs.WellFormed

/-!
Everything that callers can build. They start from values without parts, empty containers and
events, run operations, take values out of containers and put them into others.
-/

namespace DocTree

def Answer.values : Answer → List Value
  | value v => [v]
  | value? v => v.toList
  | member m => [m.value]
  | _ => []

theorem Answer.Holds.of_mem {P : Value → Prop} {a : Answer} (holds : a.Holds P) {v : Value}
    (isIn : v ∈ a.values) : P v := by
  cases a with
  | value w => exact List.mem_singleton.mp isIn ▸ holds
  | value? w => exact holds v (Option.mem_toList.mp isIn)
  | member m => exact List.mem_singleton.mp isIn ▸ holds
  | _ => cases isIn

mutual

/-- Values that callers can build. -/
inductive Value.Built : Value → Prop
  | leaf (t : Tag) (x : Leaf) : Value.Built (.leaf t x)
  | array (t : Tag) {s : Sequence Value} : Sequence.Built s → Value.Built (.array t s)
  | object (t : Tag) {o : Object Value} : Object.Built o → Value.Built (.object t o)
  | ofInsertionObject {o : InsertionObject Value} {v : Value} {l l' : Ledger} :
      InsertionObject.Built o → o.toValue l = .ok v l' → Value.Built v
  | constRef {v : Value} : Value.Built v → Value.Built v.constRef
  | withTag (t : Tag) {v : Value} : Value.Built v → Value.Built (v.withTag t)
  | read {e : Event} {v : Value} : e.read = .ok v → Value.Built v
  | entered (path : List Step) (op : ValueOp) {v : Value} (l : Ledger) : Value.Built v →
      (∀ w ∈ op.values, Value.Built w) →
      Value.Built (leftBy (Value.editPath path op.run ⟨v, l⟩))
  | written (path : List Step) (op : ValueOp) {v : Value} (l : Ledger) : Value.Built v →
      (∀ w ∈ op.values, Value.Built w) →
      Value.Built (leftBy (Value.editSlots path op.run ⟨v, l⟩))
  | answered (op : ValueOp) {v w : Value} {l : Ledger} {a : Answer} {s : Scene Value} :
      Value.Built v → (∀ u ∈ op.values, Value.Built u) → op.run ⟨v, l⟩ = .ok a s →
      w ∈ a.values → Value.Built w
  | item {s : Sequence Value} {v : Value} : Sequence.Built s → v ∈ s.items → Value.Built v
  | member {o : Object Value} {m : Member Value} :
      Object.Built o → m ∈ o.members → Value.Built m.value
  | insertionMember {o : InsertionObject Value} {m : Member Value} :
      InsertionObject.Built o → m ∈ o.members → Value.Built m.value

inductive Sequence.Built : Sequence Value → Prop
  /-- A sequence may be filled in any way. -/
  | filled {s : Sequence Value} : (∀ v ∈ s.items, Value.Built v) → Sequence.Built s
  | run (op : SequenceOp) {s : Sequence Value} (l : Ledger) : Sequence.Built s →
      (∀ v ∈ op.values, Value.Built v) → Sequence.Built (leftBy (op.run ⟨s, l⟩))
  | ofValue {v : Value} {s : Sequence Value} :
      Value.Built v → v.asSequence? = some s → Sequence.Built s

inductive Object.Built : Object Value → Prop
  | empty (home : Home) : Object.Built (.empty home)
  /-- Callers keep what they promise. -/
  | run (op : ObjectOp (Object Value)) {o : Object Value} (l : Ledger) : Object.Built o →
      op.Promise o → (∀ v ∈ op.values o, Value.Built v) → Object.Built (leftBy (op.run ⟨o, l⟩))
  | copy {o : Object Value} : Object.Built o → Object.Built o.copy
  | ofValue {v : Value} {o : Object Value} :
      Value.Built v → v.asObject? = some o → Object.Built o
  | read {e : Event} {o : Object Value} : e.readObject = .ok o → Object.Built o

inductive InsertionObject.Built : InsertionObject Value → Prop
  | empty (home : Home) : InsertionObject.Built (.empty home)
  | run (op : ObjectOp (InsertionObject Value)) {o : InsertionObject Value} (l : Ledger) :
      InsertionObject.Built o → op.Promise o → (∀ v ∈ op.values o, Value.Built v) →
      InsertionObject.Built (leftBy (op.run ⟨o, l⟩))
  | copy {o : InsertionObject Value} : InsertionObject.Built o → InsertionObject.Built o.copy
  | read {e : Event} {o : InsertionObject Value} :
      e.readInsertionObject = .ok o → InsertionObject.Built o

end

theorem InsertionObject.toValue_wellFormed {o : InsertionObject Value}
    (wellFormed : AllValues Value.WellFormed o.members) {v : Value} {l l' : Ledger}
    (made : o.toValue l = .ok v l') : v.WellFormed := by
  obtain ⟨p, _, gathered, ⟨⟩⟩ := bind_eq_ok made
  obtain ⟨ms, _, adopted, ⟨⟩⟩ := bind_eq_ok gathered
  have members := Value.WellFormed.lasting.adopted adopted wellFormed
  exact .object _ (Object.ofMembers_ascending _ ms) members.runHeads

mutual

theorem Value.Built.wellFormed : ∀ {v : Value}, v.Built → v.WellFormed
  | _, .leaf t x => .leaf t x
  | _, .array t s => .array t s.wellFormed
  | _, .object t o => .ofObject t o.wellFormed
  | _, .ofInsertionObject o made => InsertionObject.toValue_wellFormed o.wellFormed made
  | _, .constRef v => v.wellFormed.constRef
  | _, .withTag t v => v.wellFormed.withTag t
  | _, .read held => Event.read_wellFormed held
  | _, .entered path op l v given =>
    (Value.editPath_wellFormed path
      (op.run_wellFormed fun w isIn => (given w isIn).wellFormed) _ l v.wellFormed).left
  | _, .written path op l v given =>
    (Value.editSlots_wellFormed path
      (op.run_wellFormed fun w isIn => (given w isIn).wellFormed) _ l v.wellFormed).left
  | _, .answered op v given ran isIn =>
    have kept := op.run_wellFormed fun u isIn => (given u isIn).wellFormed
    (kept.answer v.wellFormed ran).of_mem isIn
  | _, .item s isIn => s.wellFormed _ isIn
  | _, .member o isIn => o.wellFormed.2 _ isIn
  | _, .insertionMember o isIn => o.wellFormed _ isIn

theorem Sequence.Built.wellFormed : ∀ {s : Sequence Value}, s.Built → ∀ v ∈ s.items, v.WellFormed
  | _, .filled items => fun v isIn => (items v isIn).wellFormed
  | _, .run op l s given =>
    (op.run_keeps Value.WellFormed.lasting (fun v isIn => (given v isIn).wellFormed)
      (.inr fun _ => id) _ l ⟨rfl, s.wellFormed⟩).left.2
  | _, .ofValue v held => Value.asSequence?_wellFormed v.wellFormed held

theorem Object.Built.wellFormed : ∀ {o : Object Value}, o.Built → o.WellFormed
  | _, .empty _ => ⟨.nil, nofun⟩
  | _, .run op l o promised given =>
    (Object.run_wellFormed op promised (fun v isIn => (given v isIn).wellFormed)
      o.wellFormed l).left
  | _, .copy o => o.wellFormed
  | _, .ofValue v held => Value.asObject?_wellFormed v.wellFormed held
  | _, .read held => Event.readObject_wellFormed held

theorem InsertionObject.Built.wellFormed : ∀ {o : InsertionObject Value}, o.Built →
    AllValues Value.WellFormed o.members
  | _, .empty _ => nofun
  | _, .run op l o _ given =>
    (op.run_carries (InsertionObject.passing Value.WellFormed.lasting)
      (fun v isIn => (given v isIn).wellFormed) (.inr fun _ => id) ⟨rfl, o.wellFormed⟩ l).left.2
  | _, .copy o => o.wellFormed
  | _, .read held => Event.readInsertionObject_wellFormed held

end

theorem Object.Built.ordered {o : Object Value} (built : o.Built) : o.Ordered :=
  built.wellFormed.1

theorem Event.readInsertionObject_indexed {e : Event} {o : InsertionObject Value}
    (held : e.readInsertionObject = .ok o) : o.Indexed := by
  unfold readInsertionObject at held
  split at held
  · obtain ⟨ms, -, ⟨⟩⟩ := Except.of_bind_ok held
    exact InsertionObject.indexed_dedup _ ms
  · cases held

theorem InsertionObject.Built.indexed : ∀ {o : InsertionObject Value}, o.Built → o.Indexed
  | _, .empty _ => ⟨.refl _, .nil⟩
  | _, .run op l o promised _ =>
    (InsertionObject.run_alike op _ _ l ⟨o.indexed, rfl⟩ promised).matched.1
  | _, .copy o => ⟨o.indexed.positions, o.indexed.ascending⟩
  | _, .read held => Event.readInsertionObject_indexed held

end DocTree
