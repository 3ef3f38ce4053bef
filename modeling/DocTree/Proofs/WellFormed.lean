import DocTree.Event.Read
import DocTree.Proofs.KeptValues

namespace DocTree

/-- At every depth, and behind references too, objects list their members by ascending key and no
reference leads to a reference. -/
inductive Value.WellFormed : Value → Prop
  | leaf (t : Tag) (x : Leaf) : WellFormed (.leaf t x)
  | array (t : Tag) {s : Sequence Value} : (∀ v ∈ s.items, WellFormed v) → WellFormed (.array t s)
  | object (t : Tag) {o : Object Value} : o.Ordered → (∀ m ∈ o.members, WellFormed m.value) →
      WellFormed (.object t o)
  | ref (t : Tag) {v : Value} : v.storage ≠ .reference → WellFormed v → WellFormed (.ref t v)

def Object.WellFormed (o : Object Value) : Prop :=
  o.Ordered ∧ AllValues Value.WellFormed o.members

namespace Value.WellFormed

variable {v : Value}

theorem withTag (wellFormed : v.WellFormed) (t : Tag) : (v.withTag t).WellFormed := by
  cases wellFormed with
  | leaf _ x => exact .leaf t x
  | array _ items => exact .array t items
  | object _ ascending members => exact .object t ascending members
  | ref _ direct target => exact .ref t direct target

theorem resolve (wellFormed : v.WellFormed) : v.resolve.WellFormed := by
  induction wellFormed with
  | leaf t x => exact .leaf t x
  | array t items _ => exact .array t items
  | object t ascending members _ => exact .object t ascending members
  | ref _ _ _ ih => exact ih

theorem follow (wellFormed : v.WellFormed) : v.follow.WellFormed := by
  cases wellFormed with
  | leaf t x => exact .leaf t x
  | array t items => exact .array t items
  | object t ascending members => exact .object t ascending members
  | ref _ _ target => exact target

theorem follow_storage (wellFormed : v.WellFormed) : v.follow.storage ≠ .reference := by
  cases wellFormed with
  | leaf _ x => exact x.storage_ne_reference
  | ref _ direct _ => exact direct
  | _ => exact Storage.noConfusion

/-- There is no second reference to follow. -/
theorem follow_eq_resolve (wellFormed : v.WellFormed) : v.follow = v.resolve := by
  cases wellFormed with
  | @ref _ w direct _ =>
    cases w with
    | ref t u => exact absurd rfl direct
    | _ => rfl
  | _ => rfl

theorem constRef (wellFormed : v.WellFormed) : v.constRef.WellFormed :=
  .ref _ wellFormed.follow_storage wellFormed.follow

theorem promote (wellFormed : v.WellFormed) : v.promote.WellFormed := by
  cases wellFormed with
  | leaf t x =>
    cases x with
    | emptyObject => exact .object t .nil nofun
    | _ => exact .leaf t _
  | array t items => exact .array t items
  | object t ascending members => exact .object t ascending members
  | ref t direct target => exact .ref t direct target

theorem ofObject {o : Object Value} (t : Tag) (wellFormed : o.WellFormed) :
    (Value.object t o).WellFormed := .object t wellFormed.1 wellFormed.2

theorem housed (n : Nat) (wellFormed : v.WellFormed) : (v.housed n).WellFormed := by
  induction wellFormed with
  | leaf t x =>
    cases x with
    | emptyObject => exact .object t .nil nofun
    | _ => exact .leaf t _
  | array t items ih =>
    unfold Value.housed
    split
    · exact .array t items
    · refine .array t ?_
      simpa only [housedItems_eq_map, List.forall_mem_map] using ih
  | object t ascending members ih =>
    unfold Value.housed
    split
    · exact .object t ascending members
    · rename_i o _
      have keys : (housedMembers n o.members).map Member.key = o.members.map Member.key := by
        rw [housedMembers_eq_map, List.map_map]
        rfl
      refine .object t (AscendingBy.congr ascending keys) ?_
      simpa only [housedMembers_eq_map, List.forall_mem_map] using ih
  | ref t direct target _ => exact .ref t direct target

theorem shrinkToFit (wellFormed : v.WellFormed) : v.shrinkToFit.WellFormed := by
  induction wellFormed with
  | leaf t x => exact .leaf t x
  | array t _ ih =>
    refine .array t ?_
    simpa only [shrinkItems_eq_map, List.forall_mem_map] using ih
  | @object t o ascending _ ih =>
    have keys : (shrinkMembers o.members).map Member.key = o.members.map Member.key := by
      rw [shrinkMembers_eq_map, map_key_mapMembers]
    refine .object t (AscendingBy.congr ascending keys) ?_
    simpa only [shrinkMembers_eq_map, mapMembers, List.forall_mem_map] using ih
  | ref t direct target _ => exact .ref t direct target

theorem lasting : Lasting fun _ => WellFormed where
  housed {home _} wellFormed := by
    cases home with
    | heap => exact wellFormed
    | arena n => exact wellFormed.housed n
  freed wellFormed := wellFormed
  shrunk wellFormed := wellFormed.shrinkToFit

end Value.WellFormed

namespace Object

variable {α β : Type} {A : α → β → Prop} {J : α → Prop}

theorem keeps_wellFormed {home : Home} {e : Edit (Object Value) α} {f : Edit KeyedMap β}
    (same : Lockstep Lists A e f) (carries : Keeps (Carries (fun _ => Value.WellFormed) home) J e) :
    Keeps (fun o => o.home = home ∧ o.WellFormed) J e := by
  rintro o l ⟨here, wellFormed⟩
  have ascends := (same o _ l wellFormed.1.lists).matched.ordered
  exact ((carries o l ⟨here, wellFormed.2⟩).and ascends).imp fun _ held =>
    ⟨held.2.1, held.1, held.2.2⟩

theorem editValue?_wellFormed {home : Home} (pos : Nat) {e : Edit Value α}
    (inner : Keeps Value.WellFormed J e) :
    Keeps (fun o => o.home = home ∧ o.WellFormed) (IfSome J) (editValue? pos e) := by
  refine .bind .subject fun o old => .zoom? inner (fun v here => ?_) fun v new =>
    ⟨old.1, old.2.1.assignAt pos v, AllValues.modify old.2.2 pos new⟩
  obtain ⟨m, there, rfl⟩ := Option.map_eq_some_iff.mp here
  exact old.2.2 m (List.mem_of_getElem? there)

theorem run_wellFormed (op : ObjectOp (Object Value)) {o : Object Value} (promised : op.Promise o)
    (given : ∀ v ∈ op.values o, v.WellFormed) (wellFormed : o.WellFormed) (l : Ledger) :
    Kept WellFormed (Answer.Holds Value.WellFormed) l (op.run ⟨o, l⟩) := by
  have kept := op.run_carries (passing Value.WellFormed.lasting) given (.inr fun _ => id)
    ⟨rfl, wellFormed.2⟩ l
  have ascends := (run_alike op o _ l wellFormed.1.lists promised).matched.ordered
  exact (kept.imp fun _ held => held.2).and ascends

end Object

namespace Value.WellFormed

theorem editable :
    Editable (fun _ => WellFormed) fun home o => o.home = home ∧ o.WellFormed where
  insertOrAssign key _ wellFormed := Object.keeps_wellFormed (Object.insertOrAssign_lockstep key _)
    (Object.insertOrAssign_carries lasting key wellFormed)
  tryEmplace key _ wellFormed := Object.keeps_wellFormed (Object.tryEmplace_lockstep key _)
    (Object.tryEmplace_carries lasting key wellFormed)
  erase key := Object.keeps_wellFormed (Object.erase_lockstep key) (Object.erase_carries key)
  merge wellFormed := Object.keeps_wellFormed (Object.merge_lockstep _)
    ((Object.passing lasting).merge wellFormed)
  mergeOrUpdate wellFormed := Object.keeps_wellFormed (Object.mergeOrUpdate_lockstep _)
    ((Object.passing lasting).mergeOrUpdate wellFormed)
  clear := Object.keeps_wellFormed Object.clear_lockstep Object.clear_carries
  reserve additional := Object.keeps_wellFormed (Object.reserve_lockstep additional)
    (Object.reserve_carries additional)
  editValue? pos _ inner := Object.editValue?_wellFormed pos inner

theorem layered :
    Layered (fun _ => WellFormed) fun home o => o.home = home ∧ o.WellFormed where
  toLasting := lasting
  toEditable := editable
  leaf t x := .leaf t x
  null t := .leaf t _
  withTag t wellFormed := wellFormed.withTag t
  resolve wellFormed := wellFormed.resolve
  promote wellFormed := wellFormed.promote
  items
    | .array _ items => items
  withItems _ held := .array _ held.2
  empty := ⟨rfl, .nil, nofun⟩
  values held := held.2.2
  object
    | .object _ ascending members => ⟨rfl, ascending, members⟩
  withMembers _ held := .ofObject _ held.2

end Value.WellFormed

theorem ValueOp.run_wellFormed (op : ValueOp) (given : ∀ v ∈ op.values, v.WellFormed) :
    Keeps Value.WellFormed (Answer.Holds Value.WellFormed) op.run :=
  op.run_keeps Value.WellFormed.layered given (.inr fun _ _ => id) .heap

namespace Value

variable {β : Type} {J : β → Prop}

theorem editPath_wellFormed (path : List Step) {e : Edit Value β} (inner : Keeps WellFormed J e) :
    Keeps WellFormed (IfSome J) (editPath path e) :=
  editPath_keeps WellFormed.layered path (fun _ => inner) .heap

theorem editSlots_wellFormed (path : List Step) {e : Edit Value β} (inner : Keeps WellFormed J e) :
    Keeps WellFormed J (editSlots path e) :=
  editSlots_keeps WellFormed.layered (fun _ _ => id) path (fun _ => inner) .heap

theorem asSequence?_wellFormed {v : Value} (wellFormed : v.WellFormed) {s : Sequence Value}
    (held : v.asSequence? = some s) : ∀ w ∈ s.items, w.WellFormed :=
  asSequence?_keeps WellFormed.layered wellFormed held

theorem asObject?_wellFormed {v : Value} (wellFormed : v.WellFormed) {o : Object Value}
    (held : v.asObject? = some o) : o.WellFormed :=
  (asObject?_keeps WellFormed.layered wellFormed held).2

theorem ofMembers_wellFormed {ms : List (Member Value)} (wellFormed : AllValues WellFormed ms) :
    (ofMembers ms).WellFormed := by
  cases ms with
  | nil => exact .leaf _ _
  | cons m ms =>
    exact .object _ (Object.ofMembers_ascending .heap _) wellFormed.runHeads

end Value

theorem Except.of_bind_ok {ε α β : Type} {x : Except ε α} {f : α → Except ε β} {b : β}
    (done : x >>= f = .ok b) : ∃ a, x = .ok a ∧ f a = .ok b := by
  cases x with
  | ok a => exact ⟨a, rfl, done⟩
  | error => cases done

namespace Event

mutual

theorem read_wellFormed : ∀ {e : Event} {v : Value}, e.read = .ok v → v.WellFormed
  | unit, _, rfl | absent, _, rfl | boolean _, _, rfl | signed _, _, rfl => .leaf _ _
  | unsigned n, _, rfl => by
    unfold Value.ofWord
    split <;> exact .leaf _ _
  | float _, _, rfl | text _, _, rfl | bytes _, _, rfl => .leaf _ _
  | present e, _, held => read_wellFormed (e := e) held
  | sequence _ es, v, held => by
    obtain ⟨vs, items, ⟨⟩⟩ := Except.of_bind_ok held
    exact .array _ (readItems_wellFormed items)
  | map _ es, v, held => by
    obtain ⟨ms, entries, ⟨⟩⟩ := Except.of_bind_ok held
    exact Value.ofMembers_wellFormed (readEntries_wellFormed entries)

theorem readItems_wellFormed : ∀ {es : List Event} {vs : List Value}, readItems es = .ok vs →
    ∀ v ∈ vs, v.WellFormed
  | [], _, rfl => nofun
  | e :: es, vs, held => by
    obtain ⟨v, first, held⟩ := Except.of_bind_ok held
    obtain ⟨vs, rest, ⟨⟩⟩ := Except.of_bind_ok held
    exact List.forall_mem_cons.mpr ⟨read_wellFormed first, readItems_wellFormed rest⟩

theorem readEntries_wellFormed : ∀ {es : List (Event × Event)} {ms : List (Member Value)},
    readEntries es = .ok ms → AllValues Value.WellFormed ms
  | [], _, rfl => nofun
  | (k, e) :: es, ms, held => by
    obtain ⟨key, -, held⟩ := Except.of_bind_ok held
    obtain ⟨v, first, held⟩ := Except.of_bind_ok held
    obtain ⟨ms, rest, ⟨⟩⟩ := Except.of_bind_ok held
    exact List.forall_mem_cons.mpr ⟨read_wellFormed first, readEntries_wellFormed rest⟩

end

theorem readObject_wellFormed {e : Event} {o : Object Value} (held : e.readObject = .ok o) :
    o.WellFormed := by
  unfold readObject at held
  split at held
  · obtain ⟨ms, entries, ⟨⟩⟩ := Except.of_bind_ok held
    exact ⟨Object.ofMembers_ascending .heap ms, (readEntries_wellFormed entries).runHeads⟩
  · cases held

theorem readInsertionObject_wellFormed {e : Event} {o : InsertionObject Value}
    (held : e.readInsertionObject = .ok o) : AllValues Value.WellFormed o.members := by
  unfold readInsertionObject at held
  split at held
  · obtain ⟨ms, entries, ⟨⟩⟩ := Except.of_bind_ok held
    exact (InsertionObject.dedup_carries (P := fun _ => Value.WellFormed) rfl
      (readEntries_wellFormed entries)).2
  · cases held

end Event

end DocTree
