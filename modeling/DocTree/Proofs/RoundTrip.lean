import DocTree.Proofs.Built
import DocTree.Proofs.References

namespace DocTree

namespace Event

mutual

def announced : Event → Bool
  | present e | newtype e => e.announced
  | sequence hint es => hint == some es.length && announcedItems es
  | map hint es => hint == some es.length && announcedEntries es
  | _ => true

def announcedItems : List Event → Bool
  | [] => true
  | e :: es => e.announced && announcedItems es

def announcedEntries : List (Event × Event) → Bool
  | [] => true
  | (k, e) :: es => k.announced && e.announced && announcedEntries es

end

end Event

namespace Value

theorem length_itemEvents (vs : List Value) : (itemEvents vs).length = vs.length := by
  rw [itemEvents_eq_map, List.length_map]

theorem length_memberEvents (ms : List (Member Value)) :
    (memberEvents ms).length = ms.length := by
  rw [memberEvents_eq_map, List.length_map]

mutual

theorem toEvent_announced : ∀ v : Value, v.toEvent.announced = true
  | leaf t x => by cases x <;> rfl
  | array t s => by
    rw [toEvent, Event.announced, length_itemEvents, itemEvents_announced s.items, Bool.and_true]
    exact beq_self_eq_true _
  | object t o => by
    rw [toEvent, Event.announced, length_memberEvents, memberEvents_announced o.members,
      Bool.and_true]
    exact beq_self_eq_true _
  | ref t v => v.toEvent_announced

theorem itemEvents_announced : ∀ vs : List Value,
    Event.announcedItems (itemEvents vs) = true
  | [] => rfl
  | v :: vs => by
    rw [itemEvents, Event.announcedItems, v.toEvent_announced, itemEvents_announced vs]
    rfl

theorem memberEvents_announced : ∀ ms : List (Member Value),
    Event.announcedEntries (memberEvents ms) = true
  | [] => rfl
  | m :: ms => by
    rw [memberEvents, Event.announcedEntries, m.value.toEvent_announced, memberEvents_announced ms]
    rfl

end

end Value

def Leaf.reread : Leaf → Value
  | null => .null
  | boolean b => .ofBool b
  | int64 n => .ofInt64 n
  | uint64 n => .ofWord n
  | half h => .ofDouble h.toDouble
  | double x => .ofDouble x
  | text _ s => .ofText s
  | bytes _ b => .ofBytes b
  | emptyObject => .emptyObject

namespace Value

mutual

/-- A value as it is read back: everything on the heap, without tags and references. -/
def reread : Value → Value
  | leaf _ x => x.reread
  | array _ s => ofSequence (.ofList (rereadItems s.items))
  | object _ o => ofMembers (rereadMembers o.members)
  | ref _ v => v.reread

def rereadItems : List Value → List Value
  | [] => []
  | v :: vs => v.reread :: rereadItems vs

def rereadMembers : List (Member Value) → List (Member Value)
  | [] => []
  | m :: ms => ⟨m.key, m.value.reread⟩ :: rereadMembers ms

end

theorem rereadItems_eq_map (vs : List Value) : rereadItems vs = vs.map reread := by
  induction vs with
  | nil => rfl
  | cons v vs ih => rw [rereadItems, List.map_cons, ih]

theorem rereadMembers_eq_map (ms : List (Member Value)) :
    rereadMembers ms = ms.map fun m => ⟨m.key, m.value.reread⟩ := by
  induction ms with
  | nil => rfl
  | cons m ms ih => rw [rereadMembers, List.map_cons, ih]

theorem map_key_rereadMembers (ms : List (Member Value)) :
    (rereadMembers ms).map Member.key = ms.map Member.key := by
  rw [rereadMembers_eq_map, List.map_map]
  rfl

mutual

theorem read_toEvent : ∀ v : Value, v.toEvent.read = .ok v.reread
  | leaf t x => by cases x <;> rfl
  | array t s => by
    rw [toEvent, Event.read, readItems_itemEvents s.items]
    rfl
  | object t o => by
    rw [toEvent, Event.read, readEntries_memberEvents o.members]
    rfl
  | ref t v => v.read_toEvent

theorem readItems_itemEvents : ∀ vs : List Value,
    Event.readItems (itemEvents vs) = .ok (rereadItems vs)
  | [] => rfl
  | v :: vs => by
    rw [itemEvents, Event.readItems, v.read_toEvent, readItems_itemEvents vs]
    rfl

theorem readEntries_memberEvents : ∀ ms : List (Member Value),
    Event.readEntries (memberEvents ms) = .ok (rereadMembers ms)
  | [] => rfl
  | m :: ms => by
    rw [memberEvents, Event.readEntries, m.value.read_toEvent, readEntries_memberEvents ms]
    rfl

end

theorem ofMembers_ascending {ms : List (Member Value)} (ascending : AscendingBy Member.key ms) :
    (Object.ofMembers .heap ms).members = ms :=
  (Object.ofMembers_ascending .heap ms).ext_lookup ascending (Object.lookup_ofMembers .heap ms)

theorem asObject?_ofMembers {ms : List (Member Value)} (ascending : AscendingBy Member.key ms) :
    ∃ o, (ofMembers ms).asObject? = some o ∧ o.members = ms := by
  cases ms with
  | nil => exact ⟨{}, rfl, rfl⟩
  | cons m ms => exact ⟨_, rfl, ofMembers_ascending ascending⟩

theorem ofWord_cases (n : UInt64) :
    (∃ m : Int64, m.toInt = n.toNat ∧ ofWord n = ofInt64 m) ∨ ofWord n = ofUInt64 n := by
  by_cases small : n.toNat < signedLimit
  · refine .inl ⟨n.toInt64, ?_, if_pos small⟩
    apply BitVec.toInt_eq_toNat_of_lt
    change 2 * n.toNat < 2 ^ 64
    unfold signedLimit at small
    omega
  · exact .inr (if_neg small)

theorem equals_leaf_reread (t : Tag) (x : Leaf) : (leaf t x).equals x.reread := by
  cases x with
  | uint64 n =>
    rw [Leaf.reread]
    obtain ⟨m, value, held⟩ | held := ofWord_cases n <;> rw [held]
    · refine decide_eq_true ?_
      change Ord.compare (n.toNat : Int) m.toInt = .eq
      rw [value]
      exact Std.ReflOrd.compare_self
    · exact Leaf.equals_self (.uint64 n)
  | half h => exact Leaf.equals_self (.double h.toDouble)
  | text home s => exact Leaf.equals_self (.text home s)
  | bytes home b => exact Leaf.equals_self (.bytes home b)
  | null => exact Leaf.equals_self .null
  | boolean b => exact Leaf.equals_self (.boolean b)
  | int64 n => exact Leaf.equals_self (.int64 n)
  | double x => exact Leaf.equals_self (.double x)
  | emptyObject => exact Leaf.equals_self .emptyObject

theorem forall₂_map {α : Type} {r : α → α → Prop} {f : α → α} {xs : List α}
    (each : ∀ x ∈ xs, r x (f x)) : List.Forall₂ r xs (xs.map f) := by
  rw [List.forall₂_map_right_iff, List.forall₂_same]
  exact each

theorem equals_reread {v : Value} (wellFormed : v.WellFormed) : v.equals v.reread := by
  induction wellFormed with
  | leaf t x => exact equals_leaf_reread t x
  | array t _ items =>
    rw [reread, rereadItems_eq_map]
    exact equalItems_of_forall₂ (forall₂_map items)
  | @object t o ascending _ members =>
    have same : AscendingBy Member.key (rereadMembers o.members) :=
      AscendingBy.congr ascending (map_key_rereadMembers o.members)
    obtain ⟨p, held, listed⟩ := asObject?_ofMembers same
    have equal : List.Forall₂ (Named (equals · ·)) o.members p.members := by
      rw [listed, rereadMembers_eq_map]
      exact forall₂_map fun m isIn => ⟨rfl, members m isIn⟩
    rw [reread, equals_objects rfl held, equalMembers_of_forall₂ equal, Bool.and_true]
    exact decide_eq_true equal.length_eq
  | ref t _ _ ih => exact ih

theorem reread_ofMembers {ms : List (Member Value)} (ascending : AscendingBy Member.key ms)
    (again : rereadMembers ms = ms) : (ofMembers ms).reread = ofMembers ms := by
  cases ms with
  | nil => rfl
  | cons m ms =>
    change ofMembers (rereadMembers (Object.ofMembers .heap (m :: ms)).members) = _
    rw [ofMembers_ascending ascending, again]

theorem reread_reread {v : Value} (wellFormed : v.WellFormed) : v.reread.reread = v.reread := by
  induction wellFormed with
  | leaf t x =>
    cases x with
    | uint64 n =>
      rw [reread, Leaf.reread]
      obtain ⟨m, -, held⟩ | held := ofWord_cases n <;> rw [held]
      · rfl
      · exact held
    | _ => rfl
  | @array t s _ items =>
    have again : rereadItems (rereadItems s.items) = rereadItems s.items := by
      rw [rereadItems_eq_map, rereadItems_eq_map, List.map_map]
      exact List.map_congr_left items
    exact congrArg (fun vs => ofSequence (.ofList vs)) again
  | @object t o ascending _ members =>
    have again : rereadMembers (rereadMembers o.members) = rereadMembers o.members := by
      rw [rereadMembers_eq_map, rereadMembers_eq_map, List.map_map]
      exact List.map_congr_left fun m isIn => congrArg (Member.mk m.key) (members m isIn)
    exact reread_ofMembers (AscendingBy.congr ascending (map_key_rereadMembers o.members)) again
  | ref t _ _ ih => exact ih

/-- What becomes of a value that is written and read back. -/
structure RoundTrips (v w : Value) : Prop where
  read : v.toEvent.read = .ok w
  equal : w.equals v
  announced : v.toEvent.announced
  again : w.toEvent.read = .ok w

theorem WellFormed.roundTrips {v : Value} (wellFormed : v.WellFormed) : RoundTrips v v.reread where
  read := v.read_toEvent
  equal := by rw [equals_comm, equals_reread wellFormed]
  announced := v.toEvent_announced
  again := by rw [read_toEvent, reread_reread wellFormed]

/-- Whatever callers build is written and read back as an equal value, and what was read comes
back as it stands. -/
theorem round_trip (v : Value) (built : v.Built) : ∃ w, RoundTrips v w :=
  ⟨v.reread, built.wellFormed.roundTrips⟩

/-- A document with a key that was not there before. Under it stand a half, a small and a large
unsigned word, a tagged text of an arena and a reference to an object without members. -/
def sampleDocument : Value :=
  leftBy (editSlots [.key "parts"] (ValueOp.run (.assign (array .plain
    { items := [ofHalf ⟨0x3c00⟩, ofUInt64 7, ofUInt64 0xffffffffffffffff,
        leaf .uri (.text (.arena 0) "longer than fourteen bytes"),
        constRef (ofObject (.empty (.arena 0)))] }))) ⟨null, []⟩)

theorem sampleDocument_built : sampleDocument.Built := by
  refine .written [.key "parts"] (.assign _) [] (.leaf _ _) ?_
  refine List.forall_mem_singleton.mpr (.array _ (.filled ?_))
  simp only [List.forall_mem_cons, List.not_mem_nil, IsEmpty.forall_iff, implies_true, and_true]
  exact ⟨.leaf _ _, .leaf _ _, .leaf _ _, .leaf _ _, .constRef (.object _ (.empty _))⟩

theorem round_trip_sample : sampleDocument.Built ∧ ∃ w, RoundTrips sampleDocument w :=
  ⟨sampleDocument_built, round_trip sampleDocument sampleDocument_built⟩

end Value

end DocTree
