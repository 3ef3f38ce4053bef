import DocTree.Proofs.Intake
import DocTree.Proofs.TotalOrder
import DocTree.Value.Operation

namespace DocTree

namespace Value

/-- Two nodes that agree in everything but their room. Entries are told by their number or their
keys here; what they are is said of the nodes below. -/
inductive SameNode : Value → Value → Prop
  | leaf (t : Tag) (x : Leaf) : SameNode (leaf t x) (leaf t x)
  | array (t : Tag) {s r : Sequence Value} (home : r.home = s.home) (length : r.length = s.length) :
    SameNode (array t s) (array t r)
  | object (t : Tag) {o p : Object Value} (home : p.home = o.home)
    (keys : p.members.map Member.key = o.members.map Member.key) :
    SameNode (object t o) (object t p)
  | ref (t : Tag) (v : Value) : SameNode (ref t v) (ref t v)

/-- At every place that is not behind a reference. -/
def Everywhere (P : Value → Prop) (v : Value) : Prop := ∀ place w, v.part? place = some w → P w

/-- A node that has room for its own entries and no more. -/
def Snug : Value → Prop
  | array _ s => s.capacity = s.length
  | object _ o => o.capacity = o.length
  | _ => True

theorem parts_shrinkToFit (v : Value) : v.shrinkToFit.parts = v.parts.map shrinkToFit := by
  cases v with
  | leaf t x => rfl
  | array t s => exact shrinkItems_eq_map s.items
  | object t o =>
    rw [shrinkToFit, parts, shrinkMembers_eq_map, parts, mapMembers, List.map_map, List.map_map]
    rfl
  | ref t w => rfl

theorem part?_shrinkToFit (place : List Nat) :
    ∀ v : Value, v.shrinkToFit.part? place = (v.part? place).map shrinkToFit := by
  induction place with
  | nil => exact fun _ => rfl
  | cons i place ih =>
    intro v
    rw [part?, part?, parts_shrinkToFit, List.getElem?_map]
    cases v.parts[i]? with
    | none => rfl
    | some w => exact ih w

theorem shrinkToFit_sameNode (v : Value) : SameNode v v.shrinkToFit := by
  cases v with
  | leaf t x => exact .leaf t x
  | array t s =>
    have length : (shrinkItems s.items).length = s.items.length := by
      rw [shrinkItems_eq_map, List.length_map]
    exact .array t rfl length
  | object t o =>
    have keys : (shrinkMembers o.members).map Member.key = o.members.map Member.key := by
      rw [shrinkMembers_eq_map, map_key_mapMembers]
    exact .object t rfl keys
  | ref t w => exact .ref t w

theorem shrinkToFit_snug (v : Value) : v.shrinkToFit.Snug := by
  cases v with
  | array t s =>
    change s.items.length = (shrinkItems s.items).length
    rw [shrinkItems_eq_map, List.length_map]
  | object t o =>
    change o.members.length = (shrinkMembers o.members).length
    rw [shrinkMembers_eq_map, mapMembers, List.length_map]
  | _ => trivial

/-- What shrinking makes of a tree. -/
structure ShrunkTo (v w : Value) : Prop where
  kept : ∀ place, Option.Rel SameNode (v.part? place) (w.part? place)
  snug : w.Everywhere Snug

theorem shrinkToFit_shrunkTo (v : Value) : v.ShrunkTo v.shrinkToFit := by
  refine ⟨fun place => ?_, fun place u found => ?_⟩
  · rw [part?_shrinkToFit]
    cases v.part? place with
    | none => exact .none
    | some w => exact .some w.shrinkToFit_sameNode
  · rw [part?_shrinkToFit] at found
    obtain ⟨w, -, rfl⟩ := Option.map_eq_some_iff.mp found
    exact w.shrinkToFit_snug

theorem everywhere_iff {P : Value → Prop} {v : Value} :
    v.Everywhere P ↔ P v ∧ ∀ w ∈ v.parts, w.Everywhere P := by
  constructor
  · refine fun everywhere => ⟨everywhere [] v rfl, fun w isPart place u found => ?_⟩
    obtain ⟨i, at_i⟩ := List.mem_iff_getElem?.mp isPart
    refine everywhere (i :: place) u ?_
    rw [part?, at_i]
    exact found
  · rintro ⟨own, parts⟩ place u found
    cases place with
    | nil => exact Option.some.inj found ▸ own
    | cons i place =>
      obtain ⟨w, at_i, below⟩ := Option.bind_eq_some_iff.mp found
      exact parts w (List.mem_of_getElem? at_i) place u below

theorem inductionOnParts {P : Value → Prop} (step : ∀ v, (∀ w ∈ v.parts, P w) → P v) :
    ∀ v, P v := Inherited.holds {
  leaf t x := step (.leaf t x) nofun
  array t s items := step (.array t s) items
  object t o members := step (.object t o) (List.forall_mem_map.mpr members)
  ref t v _ := step (.ref t v) nofun }

theorem tightItems_iff (vs : List Value) : tightItems vs = true ↔ ∀ v ∈ vs, v.isTight = true := by
  induction vs with
  | nil => exact iff_of_true rfl (List.forall_mem_nil _)
  | cons v vs ih => rw [tightItems, Bool.and_eq_true, ih, List.forall_mem_cons]

theorem tightMembers_eq (ms : List (Member Value)) :
    tightMembers ms = tightItems (ms.map Member.value) := by
  induction ms with
  | nil => rfl
  | cons m ms ih => rw [tightMembers, ih, List.map_cons, tightItems]

theorem isTight_iff_parts (v : Value) :
    v.isTight = true ↔ v.Snug ∧ ∀ w ∈ v.parts, w.isTight = true := by
  cases v with
  | leaf t x => exact ⟨fun _ => ⟨trivial, nofun⟩, fun _ => rfl⟩
  | array t s =>
    rw [isTight, Bool.and_eq_true, beq_iff_eq, tightItems_iff]
    rfl
  | object t o =>
    rw [isTight, Bool.and_eq_true, beq_iff_eq, tightMembers_eq, tightItems_iff]
    rfl
  | ref t w => exact ⟨fun _ => ⟨trivial, nofun⟩, fun _ => rfl⟩

theorem isTight_iff (v : Value) : v.isTight = true ↔ v.Everywhere Snug := by
  induction v using inductionOnParts with
  | step v ih =>
    rw [isTight_iff_parts, everywhere_iff]
    exact and_congr_right fun _ => forall₂_congr ih

theorem shrinkToFit_of_isTight {v : Value} (tight : v.isTight = true) : v.shrinkToFit = v := by
  induction v using inductionOnParts with
  | step v ih =>
    obtain ⟨here, inside⟩ := (isTight_iff_parts v).mp tight
    have each : ∀ w ∈ v.parts, w.shrinkToFit = w := fun w isPart => ih w isPart (inside w isPart)
    cases v with
    | leaf t x => rfl
    | array t s =>
      have items : shrinkItems s.items = s.items := by
        rw [shrinkItems_eq_map]
        exact (List.map_congr_left each).trans (List.map_id _)
      have room : s.items.length = s.capacity := here.symm
      rw [shrinkToFit, items, room]
    | object t o =>
      have same : ∀ m ∈ o.members, (⟨m.key, m.value.shrinkToFit⟩ : Member Value) = m :=
        fun m isIn => congrArg (Member.mk m.key) (each _ (List.mem_map_of_mem isIn))
      have members : shrinkMembers o.members = o.members := by
        rw [shrinkMembers_eq_map, mapMembers, List.map_congr_left same, List.map_id']
      have room : o.members.length = o.capacity := here.symm
      rw [shrinkToFit, members, room]
    | ref t w => rfl

theorem shrinkToFit_eq_self_iff (v : Value) : v.shrinkToFit = v ↔ v.isTight = true := by
  refine ⟨fun same => ?_, shrinkToFit_of_isTight⟩
  rw [← same, isTight_iff]
  exact v.shrinkToFit_shrunkTo.snug

end Value

structure InsertionObject.ShrunkTo (o p : InsertionObject Value) : Prop where
  home : p.home = o.home
  index : p.index = o.index
  members : List.Forall₂ (fun m k => k.key = m.key ∧ m.value.ShrunkTo k.value)
    o.members p.members
  snug : p.capacity = p.length

theorem InsertionObject.shrinkToFit_shrunkTo (o : InsertionObject Value) :
    o.ShrunkTo o.shrinkToFit where
  home := rfl
  index := rfl
  members := by
    change List.Forall₂ _ o.members (Value.shrinkMembers o.members)
    rw [Value.shrinkMembers_eq_map, mapMembers, List.forall₂_map_right_iff, List.forall₂_same]
    exact fun m _ => ⟨rfl, m.value.shrinkToFit_shrunkTo⟩
  snug := by
    change o.members.length = (Value.shrinkMembers o.members).length
    rw [Value.shrinkMembers_eq_map, mapMembers, List.length_map]

/-- Shrinking takes the room to spare from the whole tree and nothing else. It charges no arena,
and a tree without such room is the one it leaves alone. Arrays and objects that are held by
themselves are shrunk as values of the same entries are. -/
theorem shrinking_takes_room_only :
    (∀ (v : Value) (l : Ledger),
      ∃ w, ValueOp.shrinkToFit.run ⟨v, l⟩ = .ok .nothing ⟨w, l⟩ ∧ v.ShrunkTo w ∧
        (w = v ↔ v.isTight = true)) ∧
    (∀ (t : Tag) (s : Sequence Value) (l : Ledger),
      ∃ r, SequenceOp.shrinkToFit.run ⟨s, l⟩ = .ok .nothing ⟨r, l⟩ ∧
        (Value.array t s).ShrunkTo (.array t r)) ∧
    (∀ (t : Tag) (o : Object Value) (l : Ledger),
      ∃ p, ObjectOp.shrinkToFit.run ⟨o, l⟩ = .ok .nothing ⟨p, l⟩ ∧
        (Value.object t o).ShrunkTo (.object t p)) ∧
    ∀ (o : InsertionObject Value) (l : Ledger),
      ∃ p, ObjectOp.shrinkToFit.run ⟨o, l⟩ = .ok .nothing ⟨p, l⟩ ∧ o.ShrunkTo p := by
  refine ⟨fun v l => ?_, fun t s l => ?_, fun t o l => ?_, fun o l => ?_⟩
  · exact ⟨v.shrinkToFit, rfl, v.shrinkToFit_shrunkTo, v.shrinkToFit_eq_self_iff⟩
  · exact ⟨s.shrinkToFit, rfl, (Value.array t s).shrinkToFit_shrunkTo⟩
  · exact ⟨o.shrinkToFit, rfl, (Value.object t o).shrinkToFit_shrunkTo⟩
  · exact ⟨o.shrinkToFit, rfl, o.shrinkToFit_shrunkTo⟩

example :
    (Value.array .plain ⟨.heap, 8, [.ref .plain (.array .plain ⟨.heap, 8, []⟩)]⟩).shrinkToFit =
      .array .plain ⟨.heap, 1, [.ref .plain (.array .plain ⟨.heap, 8, []⟩)]⟩ := rfl

end DocTree
