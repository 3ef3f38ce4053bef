import DocTree.Proofs.Lodged

/-!
Containers that only grow by insertion. Callers start from values without parts and new
containers, insert and remove at any depth, and move values between containers of any arenas.
-/

namespace DocTree

mutual

/-- Values that callers can build by insertion. -/
inductive Value.Grown : Value → Prop
  | leaf (t : Tag) (x : Leaf) : Value.Grown (.leaf t x)
  | array (t : Tag) {s : Sequence Value} : Sequence.Grown s → Value.Grown (.array t s)
  | object (t : Tag) {o : Object Value} : Object.Grown o → Value.Grown (.object t o)
  | ofInsertionObject {o : InsertionObject Value} {v : Value} {l m : Ledger} :
      InsertionObject.Grown o → o.toValue l = .ok v m → Value.Grown v
  | constRef {v : Value} : Value.Grown v → Value.Grown v.constRef
  | withTag (t : Tag) {v : Value} : Value.Grown v → Value.Grown (v.withTag t)
  | nested (path : List Step) (node : NodeOp) {v : Value} (l : Ledger) : Value.Grown v →
      node.Inserting → (∀ o, ∀ w ∈ node.values o, Value.Grown w) →
      Value.Grown (leftBy (node.runAt path ⟨v, l⟩))
  | item {s : Sequence Value} {v : Value} : Sequence.Grown s → v ∈ s.items → Value.Grown v
  | member {o : Object Value} {m : Member Value} :
      Object.Grown o → m ∈ o.members → Value.Grown m.value
  | insertionMember {o : InsertionObject Value} {m : Member Value} :
      InsertionObject.Grown o → m ∈ o.members → Value.Grown m.value

inductive Sequence.Grown : Sequence Value → Prop
  | empty (home : Home) : Sequence.Grown (.empty home)
  | withCapacity {home : Home} {capacity : Nat} {s : Sequence Value} {l m : Ledger} :
      Sequence.withCapacity home capacity l = .ok s m → Sequence.Grown s
  | ofList {vs : List Value} : (∀ v ∈ vs, Value.Grown v) → Sequence.Grown (.ofList vs)
  | run (op : SequenceOp) {s : Sequence Value} (l : Ledger) : Sequence.Grown s → op.Inserting →
      (∀ v ∈ op.values, Value.Grown v) → Sequence.Grown (leftBy (op.run ⟨s, l⟩))
  /-- What was put behind the others may be grown at once. -/
  | emplaced {v : Value} (path : List Step) (node : NodeOp) {s : Sequence Value} (l : Ledger) :
      Sequence.Grown s → Value.Grown v → node.Inserting →
      (∀ o, ∀ w ∈ node.values o, Value.Grown w) →
      Sequence.Grown (leftBy (Sequence.emplaceBack v (node.runAt path) ⟨s, l⟩))
  | resizedWith (n : Nat) {make : Nat → Charging Value} {s : Sequence Value} (l : Ledger) :
      Sequence.Grown s → (∀ i, Forward (make i)) →
      (∀ i k v m, make i k = .ok v m → Value.Grown v) →
      Sequence.Grown (leftBy (Sequence.resizeWith n make ⟨s, l⟩))
  | nested (pos : Nat) (path : List Step) (node : NodeOp) {s : Sequence Value} (l : Ledger) :
      Sequence.Grown s → node.Inserting → (∀ o, ∀ w ∈ node.values o, Value.Grown w) →
      Sequence.Grown (leftBy (Sequence.editAt pos (node.runAt path) ⟨s, l⟩))
  | copy {s : Sequence Value} : Sequence.Grown s → Sequence.Grown s.copy
  | ofValue {v : Value} {s : Sequence Value} :
      Value.Grown v → v.asSequence? = some s → Sequence.Grown s

inductive Object.Grown : Object Value → Prop
  | built (origin : ObjectOrigin) {o : Object Value} {l m : Ledger} :
      (∀ v ∈ origin.values, Value.Grown v) → origin.build l = .ok o m → Object.Grown o
  | run (op : ObjectOp (Object Value)) {o : Object Value} (l : Ledger) : Object.Grown o →
      op.Inserting → (∀ v ∈ op.values o, Value.Grown v) → Object.Grown (leftBy (op.run ⟨o, l⟩))
  | nested (pos : Nat) (path : List Step) (node : NodeOp) {o : Object Value} (l : Ledger) :
      Object.Grown o → node.Inserting → (∀ o, ∀ w ∈ node.values o, Value.Grown w) →
      Object.Grown (leftBy (Object.editAt pos (node.runAt path) ⟨o, l⟩))
  | copy {o : Object Value} : Object.Grown o → Object.Grown o.copy
  | ofValue {v : Value} {o : Object Value} :
      Value.Grown v → v.asObject? = some o → Object.Grown o

inductive InsertionObject.Grown : InsertionObject Value → Prop
  | built (origin : ObjectOrigin) {o : InsertionObject Value} {l m : Ledger} :
      (∀ v ∈ origin.values, Value.Grown v) → origin.build l = .ok o m → InsertionObject.Grown o
  | run (op : ObjectOp (InsertionObject Value)) {o : InsertionObject Value} (l : Ledger) :
      InsertionObject.Grown o → op.Inserting → (∀ v ∈ op.values o, Value.Grown v) →
      InsertionObject.Grown (leftBy (op.run ⟨o, l⟩))
  | nested (pos : Nat) (path : List Step) (node : NodeOp) {o : InsertionObject Value} (l : Ledger) :
      InsertionObject.Grown o → node.Inserting → (∀ o, ∀ w ∈ node.values o, Value.Grown w) →
      InsertionObject.Grown (leftBy (InsertionObject.editAt pos (node.runAt path) ⟨o, l⟩))
  | copy {o : InsertionObject Value} : InsertionObject.Grown o → InsertionObject.Grown o.copy

end

section Invariant

open Value (Lodged)

theorem NodeOp.runAt_lodged (path : List Step) {node : NodeOp} (inserting : node.Inserting)
    (given : ∀ o, ∀ v ∈ node.values o, v.Lodged .heap) (home : Home) :
    Keeps (Lodged home) (fun _ => True) (node.runAt path) :=
  runAt_keeps Lodged.layered path inserting.stays given (.inl inserting) home

theorem InsertionObject.toValue_lodged {o : InsertionObject Value}
    (members : ∀ m ∈ o.members, m.value.Lodged o.home) {v : Value} {l m : Ledger}
    (made : o.toValue l = .ok v m) : v.Lodged .heap := by
  obtain ⟨p, _, gathered, ⟨⟩⟩ := bind_eq_ok made
  obtain ⟨ms, _, adopted, ⟨⟩⟩ := bind_eq_ok gathered
  have taken : AllValues (Lodged o.home) ms :=
    Lodged.lasting.adopted adopted fun m isIn => (members m isIn).freed
  exact .object _ (Value.suits_heap _) taken.runHeads

mutual

theorem Value.Grown.lodged : ∀ {v : Value}, v.Grown → v.Lodged .heap
  | _, .leaf t x => .leaf t (Value.suits_heap _)
  | _, .array t s => .array t (Value.suits_heap _) s.lodged
  | _, .object t o => .object t (Value.suits_heap _) o.lodged
  | _, .ofInsertionObject o made => InsertionObject.toValue_lodged o.lodged made
  | _, .constRef v => .ref _ v.lodged.follow
  | _, .withTag t v => v.lodged.withTag t
  | _, .nested path node l v inserting given =>
    (node.runAt_lodged path inserting (fun o w isIn => (given o w isIn).lodged) .heap _ l
      v.lodged).left
  | _, .item s isIn => (s.lodged _ isIn).freed
  | _, .member o isIn => (o.lodged _ isIn).freed
  | _, .insertionMember o isIn => (o.lodged _ isIn).freed

theorem Sequence.Grown.lodged : ∀ {s : Sequence Value}, s.Grown → ∀ v ∈ s.items, v.Lodged s.home
  | _, .empty home => nofun
  | _, .withCapacity made => by
    obtain ⟨_, _, -, ⟨⟩⟩ := bind_eq_ok made
    exact nofun
  | _, .ofList vs => fun v isIn => (vs v isIn).lodged
  | _, .run op l s inserting given =>
    (op.run_keeps Value.Lodged.lasting (fun v isIn => (given v isIn).lodged) (.inl inserting) _ l
      ⟨rfl, s.lodged⟩).left.own
  | _, .emplaced path node l s v inserting given =>
    (Sequence.emplaceBack_keeps Value.Lodged.lasting v.lodged
      (node.runAt_lodged path inserting (fun o w isIn => (given o w isIn).lodged) _) _ l
      ⟨rfl, s.lodged⟩).left.own
  | _, .resizedWith n l s forward made =>
    (Sequence.resizeWith_keeps Value.Lodged.lasting n forward
      (fun i k v m ran => (made i k v m ran).lodged) _ l ⟨rfl, s.lodged⟩).left.own
  | _, .nested pos path node l s inserting given =>
    (Sequence.editAt_keeps pos
      (node.runAt_lodged path inserting (fun o w isIn => (given o w isIn).lodged) _) _ l
      ⟨rfl, s.lodged⟩).left.own
  | _, .copy s => s.lodged
  | _, .ofValue v held => Value.asSequence?_keeps Value.Lodged.layered v.lodged held

theorem Object.Grown.lodged : ∀ {o : Object Value}, o.Grown →
    ∀ m ∈ o.members, m.value.Lodged o.home
  | _, .built _ given made =>
    (Object.build_carries Value.Lodged.lasting (fun v isIn => (given v isIn).lodged) made).2
  | _, .run op l o inserting given =>
    (op.run_carries (Object.passing Value.Lodged.lasting) (fun v isIn => (given v isIn).lodged)
      (.inl inserting) ⟨rfl, o.lodged⟩ l).left.2
  | _, .nested pos path node l o inserting given =>
    (Object.editAt_keeps (Object.editValue?_carries pos
      (node.runAt_lodged path inserting (fun o w isIn => (given o w isIn).lodged) _)) _ l
      ⟨rfl, o.lodged⟩).left.own.2
  | _, .copy o => o.lodged
  | _, .ofValue v held => (Value.asObject?_keeps Value.Lodged.layered v.lodged held).2

theorem InsertionObject.Grown.lodged : ∀ {o : InsertionObject Value}, o.Grown →
    ∀ m ∈ o.members, m.value.Lodged o.home
  | _, .built _ given made =>
    (InsertionObject.build_carries Value.Lodged.lasting
      (fun v isIn => (given v isIn).lodged) made).2
  | _, .run op l o inserting given =>
    (op.run_carries (InsertionObject.passing Value.Lodged.lasting)
      (fun v isIn => (given v isIn).lodged) (.inl inserting) ⟨rfl, o.lodged⟩ l).left.2
  | _, .nested pos path node l o inserting given =>
    (InsertionObject.editAt_keeps (InsertionObject.editValue?_carries pos
      (node.runAt_lodged path inserting (fun o w isIn => (given o w isIn).lodged) _)) _ l
      ⟨rfl, o.lodged⟩).left.own.2
  | _, .copy o => o.lodged

end

/-- Whatever is inserted into a container of an arena, at any depth, ends up in the arena, and so
does all that is inserted into that later. -/
theorem arena_containment (n : Nat) :
    (∀ s : Sequence Value, s.Grown → s.home = .arena n → ∀ v ∈ s.items, v.Contained n) ∧
    (∀ o : Object Value, o.Grown → o.home = .arena n →
      ∀ m ∈ o.members, m.value.Contained n) ∧
    (∀ o : InsertionObject Value, o.Grown → o.home = .arena n →
      ∀ m ∈ o.members, m.value.Contained n) := by
  refine ⟨?_, ?_, ?_⟩
  · intro s grown here v isIn
    exact (here ▸ grown.lodged v isIn).contained
  · intro o grown here m isIn
    exact (here ▸ grown.lodged m isIn).contained
  · intro o grown here m isIn
    exact (here ▸ grown.lodged m isIn).contained

def sampleText : Value := .ofText "a text of its own"

def sampleList : Value := .ofSequence (.ofList [sampleText, .emptyObject])

def sampleArray : Sequence Value :=
  leftBy (Sequence.editAt 0 (NodeOp.runAt [.index 1] (.object (.insertOrAssign "k" sampleText)))
    ⟨leftBy ((SequenceOp.push sampleList).run ⟨.empty (.arena 0), []⟩), []⟩)

theorem sampleArray_grown : sampleArray.Grown := by
  have text : sampleText.Grown := .leaf _ _
  have parts : ∀ v ∈ [sampleText, .emptyObject], v.Grown :=
    List.forall_mem_cons.mpr ⟨text, List.forall_mem_singleton.mpr (.leaf _ _)⟩
  have list : sampleList.Grown := .array _ (.ofList parts)
  unfold sampleArray
  refine .nested 0 [.index 1] (.object (.insertOrAssign "k" sampleText)) [] ?_ trivial ?_
  · exact .run (.push _) [] (.empty _) trivial (List.forall_mem_singleton.mpr list)
  · exact fun _ => List.forall_mem_singleton.mpr text

def samplePairs : ObjectOrigin :=
  .ofMembers (.arena 0) [⟨"k", sampleText⟩, ⟨"l", .emptyObject⟩]

theorem samplePairs_grown : ∀ v ∈ samplePairs.values, v.Grown :=
  List.forall_mem_cons.mpr ⟨.leaf _ _, List.forall_mem_singleton.mpr (.leaf _ _)⟩

theorem arena_containment_sample :
    (∀ v ∈ sampleArray.items, v.Contained 0) ∧
    (∃ o : Object Value, ∃ l, samplePairs.build [] = .ok o l ∧
      ∀ m ∈ o.members, m.value.Contained 0) ∧
    (∃ o : InsertionObject Value, ∃ l, samplePairs.build [] = .ok o l ∧
      ∀ m ∈ o.members, m.value.Contained 0) := by
  refine ⟨?_, ?_, ?_⟩
  · have here : sampleArray.home = .arena 0 := by decide +kernel
    exact (arena_containment 0).1 sampleArray sampleArray_grown here
  · refine ⟨_, _, rfl, ?_⟩
    exact (arena_containment 0).2.1 _ (.built (l := []) samplePairs samplePairs_grown rfl) rfl
  · refine ⟨_, _, rfl, ?_⟩
    exact (arena_containment 0).2.2 _ (.built (l := []) samplePairs samplePairs_grown rfl)
      (InsertionObject.dedup_home _ _)

end Invariant

end DocTree
