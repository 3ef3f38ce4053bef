import DocTree.Proofs.KeptValues
import DocTree.Proofs.PromotedContainers

namespace DocTree

namespace Value

variable {counts : Prop} {v w : Value} {α β : Type} {A : α → β → Prop}

/-- Two values that are about to change as the containers they are. An empty object has become an
object by now. -/
inductive Opened (counts : Prop) : Value → Value → Prop
  | leaf (t : Tag) (x : Leaf) : Opened counts (leaf t x) (leaf t x)
  | array (t : Tag) {s u : Sequence Value} : Sequence.Alike counts s u →
      Opened counts (array t s) (array t u)
  | object (t : Tag) {o p : Object Value} : Object.Alike counts o p →
      Opened counts (object t o) (object t p)
  | ref (t : Tag) (v w : Value) : Opened counts (ref t v) (ref t w)

namespace Promoted

theorem promote (promoted : Promoted counts v w) : Promoted counts v.promote w.promote := by
  cases promoted with
  | leaf t x => exact .refl counts _
  | empty t home room bare => exact promoted_compatible.object t (.of_bare home room bare)
  | array t home room items => exact .array t home room items
  | object t home room members => exact .object t home room members
  | ref t target => exact .ref t target

theorem opened (promoted : Promoted counts v w) : Opened counts v.promote w.promote := by
  cases promoted with
  | leaf t x =>
    cases x with
    | emptyObject => exact .object t ⟨rfl, fun _ => rfl, .nil⟩
    | _ => exact .leaf t _
  | empty t home room bare => exact .object t (.of_bare home room bare)
  | array t home room items => exact .array t (items.paired home room)
  | object t home room members => exact .object t (members.paired home room)
  | ref t _ => exact .ref t _ _

theorem withTag (promoted : Promoted counts v w) (t : Tag) :
    Promoted counts (v.withTag t) (w.withTag t) := by
  cases promoted with
  | leaf _ x => exact .leaf t x
  | empty _ home room bare => exact .empty t home room bare
  | array _ home room items => exact .array t home room items
  | object _ home room members => exact .object t home room members
  | ref _ target => exact .ref t target

end Promoted

theorem shrinkToFit_compatible : Compatible counts fun v w =>
    Promoted counts v w ∧ Promoted counts v.shrinkToFit w.shrinkToFit where
  leaf t x := ⟨.leaf t x, .leaf t x⟩
  empty t o home room bare := by
    refine ⟨.empty t home room bare, ?_⟩
    simp only [shrinkToFit, bare]
    exact .empty t home (fun _ => rfl) rfl
  array t s u same := by
    refine ⟨promoted_compatible.array t (same.imp fun _ _ alike => alike.1), ?_⟩
    refine .array t same.home (fun _ => same.items.length_eq) (.of_forall₂ ?_)
    simp only [shrinkItems_eq_map, List.forall₂_map_left_iff, List.forall₂_map_right_iff]
    exact same.items.imp fun _ _ alike => alike.2
  object t o p same := by
    refine ⟨promoted_compatible.object t (same.imp fun _ _ alike => alike.1), ?_⟩
    refine .object t same.home (fun _ => same.members.length_eq) (.of_forall₂ ?_)
    simp only [shrinkMembers_eq_map, mapMembers, List.forall₂_map_left_iff,
      List.forall₂_map_right_iff]
    exact same.members.imp fun _ _ alike => ⟨alike.1, alike.2.2⟩
  ref t _ _ same := ⟨.ref t same.1, .ref t same.1⟩

section Containers

theorem zoom_array_paired (t : Tag) {s u : Sequence Value} {e : Edit (Sequence Value) α}
    {f : Edit (Sequence Value) β} (same : Sequence.Alike counts s u)
    (inner : Lockstep (Sequence.Alike counts) A e f) :
    Lockstep (Promoted counts) A (Edit.zoom s (array t) e) (Edit.zoom u (array t) f) :=
  inner.zoom same fun _ _ same => promoted_compatible.array t same

theorem zoom_object_paired (t : Tag) {o p : Object Value} {e : Edit (Object Value) α}
    {f : Edit (Object Value) β} (same : Object.Alike counts o p)
    (inner : Lockstep (Object.Alike counts) A e f) :
    Lockstep (Promoted counts) A (Edit.zoom o (object t) e) (Edit.zoom p (object t) f) :=
  inner.zoom same fun _ _ same => promoted_compatible.object t same

theorem onArray_paired {e : Edit (Sequence Value) α} {f : Edit (Sequence Value) β}
    (inner : Lockstep (Sequence.Alike counts) A e f) :
    Lockstep (Promoted counts) A (onArray e) (onArray f) := by
  refine Lockstep.subject.bind fun v w promoted => ?_
  cases promoted with
  | array t home room items => exact zoom_array_paired t (items.paired home room) inner
  | _ => exact .fail _

theorem onObject_paired {e : Edit (Object Value) α} {f : Edit (Object Value) β}
    (inner : Lockstep (Object.Alike counts) A e f) :
    Lockstep (Promoted counts) A (onObject e) (onObject f) := by
  refine Lockstep.subject.bind fun v w promoted => ?_
  have opened := promoted.opened
  generalize v.promote = v at opened ⊢
  generalize w.promote = w at opened ⊢
  cases opened with
  | object t same => exact zoom_object_paired t same inner
  | _ => exact .fail _

theorem Promoted.toObject (promoted : Promoted counts v w) :
    (∃ e, v.toObject = .error e ∧ w.toObject = .error e) ∨
      ∃ o p, v.toObject = .ok o ∧ w.toObject = .ok p ∧ Object.Alike counts o p := by
  have held := promoted.resolve
  unfold Value.toObject
  generalize v.resolve = v at held ⊢
  generalize w.resolve = w at held ⊢
  cases held with
  | leaf t x =>
    cases x with
    | emptyObject => exact .inr ⟨_, _, rfl, rfl, rfl, fun _ => rfl, .nil⟩
    | _ => exact .inl ⟨_, rfl, rfl⟩
  | empty t same => exact .inr ⟨_, _, rfl, rfl, same⟩
  | array t same => exact .inl ⟨_, rfl, rfl⟩
  | object t same => exact .inr ⟨_, _, rfl, rfl, same⟩

end Containers

section Operations

theorem insert_paired (pos : Nat) (promoted : Promoted counts v w) :
    Lockstep (Promoted counts) Eq (insert pos v) (insert pos w) := by
  refine onArray_paired (Lockstep.subject.bind fun s u same => ?_)
  simp only [same.length]
  split
  · exact .fail_bind
  · exact (Sequence.insert_paired pos promoted).discard

theorem erase_paired (pos : Nat) :
    Lockstep (Promoted counts) (Promoted counts) (erase pos) (erase pos) := by
  refine onArray_paired (Lockstep.subject.bind fun s u same => ?_)
  simp only [same.length]
  split
  · exact .fail_bind
  · exact Sequence.erase_paired pos

theorem insertOrAssign_paired (key : String) (promoted : Promoted counts v w) :
    Lockstep (Promoted counts) Eq (insertOrAssign key v) (insertOrAssign key w) :=
  onObject_paired ((Object.insertOrAssign_paired key promoted).bind fun _ _ same =>
    .pure (congrArg Prod.snd same))

theorem tryEmplace_paired (key : String) (promoted : Promoted counts v w) :
    Lockstep (Promoted counts) Eq (tryEmplace key v) (tryEmplace key w) :=
  onObject_paired ((Object.tryEmplace_paired key promoted).bind fun _ _ same =>
    .pure (congrArg Prod.snd same))

theorem merge_paired (promoted : Promoted counts v w) :
    Lockstep (Promoted counts) Eq (merge v) (merge w) := by
  unfold merge
  obtain ⟨e, first, second⟩ | ⟨o, p, first, second, same⟩ := promoted.toObject <;>
    simp only [first, second]
  · exact .fail _
  · exact onObject_paired (Object.merge_paired same)

theorem mergeOrUpdate_paired (promoted : Promoted counts v w) :
    Lockstep (Promoted counts) Eq (mergeOrUpdate v) (mergeOrUpdate w) := by
  unfold mergeOrUpdate
  obtain ⟨e, first, second⟩ | ⟨o, p, first, second, same⟩ := promoted.toObject <;>
    simp only [first, second]
  · exact .fail _
  · exact onObject_paired (Object.mergeOrUpdate_paired same)

theorem eraseKey_paired (key : String) : Lockstep (Promoted counts)
    (Option.Rel (Promoted counts)) (eraseKey key) (eraseKey key) := by
  intro v w l promoted
  cases promoted with
  | leaf t x =>
    cases x with
    | emptyObject => exact .ok .none (.leaf t _)
    | _ => exact .error (.leaf t _)
  | empty t home room bare =>
    rename_i o
    -- The empty object has nothing to erase, nor does one without members.
    have nothing : Object.erase key ⟨o, l⟩ = .ok none ⟨o, l⟩ := by
      have missing : o.find? key = none := by
        simp only [Object.find?, Object.keyAt?, bare, List.getElem?_nil, Option.map_none,
          reduceCtorEq, if_false]
      unfold Object.erase
      rw [subject_bind, missing]
      rfl
    have answer : eraseKey key ⟨object t o, l⟩ = .ok none ⟨object t o, l⟩ := by
      change Edit.zoom o (object t) (Object.erase key) ⟨object t o, l⟩ = _
      unfold Edit.zoom
      simp only [nothing]
    rw [answer]
    exact .ok .none (.empty t home room bare)
  | array t home room items => exact .error (.array t home room items)
  | object t home room members =>
    exact onObject_paired (Object.erase_paired key) _ _ l (.object t home room members)
  | ref t target => exact .error (.ref t target)

theorem editAt_paired (i : Nat) {e : Edit Value α} {f : Edit Value β}
    (inner : Lockstep (Promoted counts) A e f) :
    Lockstep (Promoted counts) A (editAt i e) (editAt i f) := by
  intro v w l promoted
  cases promoted with
  | leaf t x => cases x <;> exact .error (.leaf t _)
  | empty t home room bare =>
    rename_i o
    have missing : o.members[i]? = none := by rw [bare, List.getElem?_nil]
    have answer : editAt i f ⟨object t o, l⟩ =
        .error (.error (.outOfRange i 0)) ⟨object t o, l⟩ := by
      change Edit.zoom o (object t) (Object.editAt i f) ⟨object t o, l⟩ = _
      unfold Edit.zoom
      simp only [Object.editAt_missing missing f l, bare, List.length_nil]
    rw [answer]
    exact .error (.empty t home room bare)
  | array t home room items =>
    exact zoom_array_paired t (items.paired home room) (Sequence.editAt_paired i inner) _ _ l
      (.array t home room items)
  | object t home room members =>
    exact zoom_object_paired t (members.paired home room) (Object.editAt_paired i inner) _ _ l
      (.object t home room members)
  | ref t target => exact .error (.ref t target)

theorem reserve_empty_paired (t : Tag) {o : Object Value} (home : o.home = .heap)
    (room : counts → o.capacity = 0) (bare : o.members = []) (additional : Nat) (l : Ledger) :
    Alike (Promoted counts) Eq (reserve additional ⟨leaf t .emptyObject, l⟩)
      (reserve additional ⟨object t o, l⟩) := by
  have start : Promoted counts (leaf t .emptyObject) (object t o) := .empty t home room bare
  have later := onObject_paired (Object.reserve_paired additional) _ _ l start
  have second : reserve additional ⟨object t o, l⟩ =
      onObject (Object.reserve additional) ⟨object t o, l⟩ := rfl
  have result : onObject (Object.reserve additional) ⟨object t o, l⟩ =
      if additional < roomLimit then
        .ok () ⟨object t { o with capacity := max o.capacity additional }, l⟩
      else .error (.fault .noRoom) ⟨object t o, l⟩ := by
    have none : o.length = 0 := by rw [Object.length, bare, List.length_nil]
    change Edit.zoom o (object t) (Object.reserve additional) ⟨object t o, l⟩ = _
    unfold Edit.zoom
    simp only [Object.reserve_eq, none, Nat.zero_add]
    by_cases fits : additional < roomLimit
    · simp only [fits, if_true]
    · simp only [fits, if_false]
  rw [second]
  unfold reserve
  rw [subject_bind]
  dsimp only
  split
  · rename_i zero
    subst zero
    rw [result, if_pos (by decide)]
    exact .ok rfl (.empty t home (fun counted => by rw [room counted]; rfl) bare)
  · have checked := checkRoom_eq additional ⟨leaf t .emptyObject, l⟩
    by_cases fits : additional < roomLimit
    · rw [if_pos fits] at checked
      rw [bind_of_ok checked]
      exact later
    · rw [if_neg fits] at checked
      rw [bind_of_error checked, result, if_neg fits]
      exact .error start

theorem reserve_paired (additional : Nat) :
    Lockstep (Promoted counts) Eq (reserve additional) (reserve additional) := by
  intro v w l promoted
  cases promoted with
  | leaf t x => exact .refl (Promoted.refl counts) _
  | empty t home room bare => exact reserve_empty_paired t home room bare additional l
  | array t home room items =>
    exact zoom_array_paired t (items.paired home room) (Sequence.reserve_paired additional) _ _ l
      (.array t home room items)
  | object t home room members =>
    exact zoom_object_paired t (members.paired home room) (Object.reserve_paired additional) _ _ l
      (.object t home room members)
  | ref t target => exact .ok rfl (.ref t target)

theorem clear_paired : Lockstep (Promoted counts) Eq clear clear := by
  intro v w l promoted
  cases promoted with
  | leaf t x => exact .ok rfl (.leaf t x)
  | empty t home room bare => exact .ok rfl (.empty t home room rfl)
  | array t home room items => exact .ok rfl (.array t home room .nil)
  | object t home room members => exact .ok rfl (.object t home room .nil)
  | ref t target => exact .ok rfl (.ref t target)

theorem take_paired : Lockstep (Promoted counts) (Promoted counts) take take :=
  Lockstep.subject.bind fun _ _ promoted =>
    (Lockstep.put (.refl counts null)).bind fun _ _ _ => .pure promoted

theorem putMade_paired (onRefusal : Refusal → Failure) (c : Charging Value) :
    Lockstep (Promoted counts) Eq (Edit.charge onRefusal c >>= Edit.put)
      (Edit.charge onRefusal c >>= Edit.put) :=
  (Lockstep.charge onRefusal (.refl c)).bind fun v _ same => by
    cases same
    exact .put (.refl counts v)

theorem ownObject_paired : Lockstep (Promoted counts) (Option.Rel (Object.Alike counts))
    ownObject ownObject := by
  intro v w l promoted
  have opened := promoted.opened
  have both := promoted.promote
  have updated (v : Value) : Edit.update promote ⟨v, l⟩ = .ok () ⟨v.promote, l⟩ := rfl
  unfold ownObject
  rw [bind_of_ok (updated v), bind_of_ok (updated w), subject_bind, subject_bind]
  dsimp only
  generalize v.promote = v at opened both ⊢
  generalize w.promote = w at opened both ⊢
  cases opened with
  | object t same => exact .ok (.some same) both
  | _ => exact .ok .none both

end Operations

end Value

section Operations

variable {counts : Prop}

open Value (Promoted)

inductive Answer.Paired (counts : Prop) : Answer → Answer → Prop
  | same (a : Answer) : Paired counts a a
  | value {v w : Value} : Promoted counts v w → Paired counts (.value v) (.value w)
  | value? {x y : Option Value} : Option.Rel (Promoted counts) x y →
      Paired counts (.value? x) (.value? y)

inductive ValueOp.Paired (counts : Prop) : ValueOp → ValueOp → Prop
  | bare (op : ValueOp) : op.values = [] → Paired counts op op
  | push {v w : Value} : Promoted counts v w → Paired counts (push v) (push w)
  | insert (pos : Nat) {v w : Value} : Promoted counts v w →
      Paired counts (insert pos v) (insert pos w)
  | resize (n : Nat) {v w : Value} : Promoted counts v w → Paired counts (resize n v) (resize n w)
  | insertOrAssign (key : String) {v w : Value} : Promoted counts v w →
      Paired counts (insertOrAssign key v) (insertOrAssign key w)
  | tryEmplace (key : String) {v w : Value} : Promoted counts v w →
      Paired counts (tryEmplace key v) (tryEmplace key w)
  | merge {v w : Value} : Promoted counts v w → Paired counts (merge v) (merge w)
  | mergeOrUpdate {v w : Value} : Promoted counts v w →
      Paired counts (mergeOrUpdate v) (mergeOrUpdate w)
  | assignAt (pos : Nat) {v w : Value} : Promoted counts v w →
      Paired counts (assignAt pos v) (assignAt pos w)
  | assign {v w : Value} : Promoted counts v w → Paired counts (assign v) (assign w)

theorem done_paired {e f : Edit Value Unit} (same : Lockstep (Promoted counts) Eq e f) :
    Lockstep (Promoted counts) (Answer.Paired counts) (done e) (done f) :=
  same.bind fun _ _ _ => .pure (.same _)

theorem flag_paired {e f : Edit Value Bool} (same : Lockstep (Promoted counts) Eq e f) :
    Lockstep (Promoted counts) (Answer.Paired counts) (return .flag (← e))
      (return .flag (← f)) :=
  same.bind fun _ _ same => by
    cases same
    exact .pure (.same _)

theorem ValueOp.run_paired {op other : ValueOp} (paired : ValueOp.Paired counts op other) :
    Lockstep (Promoted counts) (Answer.Paired counts) op.run other.run := by
  open Value in
  cases paired with
  | bare op none =>
    cases op with
    | erase pos => exact (erase_paired pos).bind fun _ _ related => .pure (.value related)
    | eraseKey key => exact (eraseKey_paired key).bind fun _ _ related => .pure (.value? related)
    | reserve additional => exact done_paired (reserve_paired additional)
    | clear => exact done_paired clear_paired
    | shrinkToFit =>
      exact done_paired (.update fun _ _ promoted => (shrinkToFit_compatible.relates promoted).2)
    | take => exact take_paired.bind fun _ _ related => .pure (.value related)
    | setTag t => exact done_paired (.update fun _ _ promoted => promoted.withTag t)
    | setTextIn home s => exact done_paired (putMade_paired _ (textIn home s))
    | trySetTextIn home s => exact done_paired (putMade_paired _ (textIn home s))
    | trySetBytesIn home b => exact done_paired (putMade_paired _ (bytesIn home b))
    | _ => cases none
  | push new => exact done_paired (onArray_paired (Sequence.push_paired new))
  | insert pos new => exact done_paired (insert_paired pos new)
  | resize n new => exact done_paired (onArray_paired (Sequence.resize_paired n new))
  | insertOrAssign key new => exact flag_paired (insertOrAssign_paired key new)
  | tryEmplace key new => exact flag_paired (tryEmplace_paired key new)
  | merge source => exact done_paired (merge_paired source)
  | mergeOrUpdate source => exact done_paired (mergeOrUpdate_paired source)
  | assignAt pos new => exact done_paired (editAt_paired pos (.put new))
  | assign new => exact done_paired (.put new)

end Operations

/-- How to get from a value to one of its parts in order to change it: by a step to what is there,
by the position of an entry, or by a step to what is made there. -/
inductive Way where
  | enter (p : Step)
  | entry (i : Nat)
  | make (p : Step)

namespace Value

variable {counts : Prop} {α β : Type} {A : α → β → Prop} {e : Edit Value α} {f : Edit Value β}

def editAlong : List Way → Edit Value α → Edit Value (Option α)
  | [], e => some <$> e
  | .enter p :: ways, e => Option.join <$> editChild? p (editAlong ways e)
  | .entry i :: ways, e => editAt i (editAlong ways e)
  | .make p :: ways, e => editSlot p (editAlong ways e)

theorem editChild?_paired (p : Step) (inner : Lockstep (Promoted counts) A e f) :
    Lockstep (Promoted counts) (Option.Rel A) (editChild? p e) (editChild? p f) := by
  refine Lockstep.subject.bind fun v w promoted => ?_
  have opened := promoted.opened
  generalize v.promote = v at opened ⊢
  generalize w.promote = w at opened ⊢
  cases p with
  | index i =>
    cases opened with
    | array t same => exact zoom_array_paired t same (Sequence.editItem?_paired i inner)
    | _ => exact .pure .none
  | key k =>
    cases opened with
    | object t same => exact zoom_object_paired t same (Object.editKey?_paired k inner)
    | _ => exact .pure .none

theorem editSlot_paired (p : Step) (inner : Lockstep (Promoted counts) A e f) :
    Lockstep (Promoted counts) A (editSlot p e) (editSlot p f) := by
  refine Lockstep.subject.bind fun v w promoted => ?_
  have kinds := promoted.kind
  cases p with
  | index i =>
    dsimp only
    cases promoted with
    | array t home room items =>
      have same := items.paired home room
      simp only [same.length]
      split
      · exact .fault_bind
      · exact zoom_array_paired t same (Sequence.editItem_paired i inner)
    | ref t target =>
      simp only [kinds]
      exact .fault _
    | _ => exact .fault _
  | key k =>
    have start : Promoted counts (if v.kind = .null then emptyObject else v)
        (if w.kind = .null then emptyObject else w) := by
      simp only [kinds]
      split
      · exact .refl counts _
      · exact promoted
    dsimp only
    generalize (if v.kind = .null then emptyObject else v) = v at start ⊢
    generalize (if w.kind = .null then emptyObject else w) = w at start ⊢
    have kinds := start.kind
    have opened := start.opened
    generalize v.promote = x at opened ⊢
    generalize w.promote = y at opened ⊢
    simp only [kinds]
    cases opened with
    | object t same =>
      refine zoom_object_paired t same ?_
      refine (Object.tryEmplace_paired k (.refl counts null)).bind fun _ _ placed => ?_
      cases placed
      exact Object.editAt_paired _ inner
    | _ => exact .fault _

theorem editAlong_paired (ways : List Way) (inner : Lockstep (Promoted counts) A e f) :
    Lockstep (Promoted counts) (Option.Rel A) (editAlong ways e) (editAlong ways f) := by
  induction ways with
  | nil => exact inner.answering fun _ _ => .some
  | cons way ways ih =>
    cases way with
    | enter p =>
      refine (editChild?_paired p ih).answering fun _ _ related => ?_
      cases related with
      | none => exact .none
      | some related => exact related
    | entry i => exact editAt_paired i ih
    | make p => exact editSlot_paired p ih

end Value

structure Visit where
  ways : List Way
  op : ValueOp

namespace Visit

open Value (Promoted ReadSame)

def run (visit : Visit) : Edit Value (Option Answer) := Value.editAlong visit.ways visit.op.run

/-- What the visits of a run leave, in order. Each meets the ledger that stands with it: arenas are
shared, and others may have charged them in between. A failure does not end the run. -/
def trace : List (Ledger × Visit) → Value →
    List (EStateM.Result Failure (Scene Value) (Option Answer))
  | [], _ => []
  | (l, visit) :: turns, v => visit.run ⟨v, l⟩ :: trace turns (leftBy (visit.run ⟨v, l⟩))

structure Paired (counts : Prop) (visit other : Visit) : Prop where
  ways : visit.ways = other.ways
  op : visit.op.Paired counts other.op

def Turned (counts : Prop) (turn other : Ledger × Visit) : Prop :=
  turn.1 = other.1 ∧ turn.2.Paired counts other.2

variable {counts : Prop}

theorem run_paired {visit other : Visit} (paired : visit.Paired counts other) :
    Lockstep (Promoted counts) (Option.Rel (Answer.Paired counts)) visit.run other.run := by
  unfold run
  rw [paired.ways]
  exact Value.editAlong_paired other.ways (ValueOp.run_paired paired.op)

theorem trace_paired {turns others : List (Ledger × Visit)}
    (paired : List.Forall₂ (Turned counts) turns others) {v w : Value}
    (start : Promoted counts v w) :
    List.Forall₂ (Alike (Promoted counts) (Option.Rel (Answer.Paired counts)))
      (trace turns v) (trace others w) := by
  induction paired generalizing v w with
  | nil => exact .nil
  | @cons turn other _ _ same _ ih =>
    obtain ⟨l, visit⟩ := turn
    obtain ⟨m, visited⟩ := other
    obtain ⟨rfl, same⟩ := same
    have alike := run_paired same v w l start
    exact .cons alike (ih alike.matched)

end Visit

section Passing

open Value (Promoted ReadSame)

/-- The empty object passes for an object of the heap without members, also inside other values.
Whatever is read of the two says the same, adoption charges an arena the same for both, both or
neither give out an object of their own, and a run of visits answers and fails the same way for
both and leaves both reading the same at every step. Only a search for a place to write at tells
them apart, as long as the empty object has not become an object. Capacities agree too when no room
was kept at the start. -/
theorem empty_objects_pass (counts : Prop) :
    (∀ (t : Tag) (o : Object Value), o.home = .heap → (counts → o.capacity = 0) →
      o.members = [] → Promoted counts (.leaf t .emptyObject) (.object t o)) ∧
    ∀ {v w : Value}, Promoted counts v w →
      ReadSame counts (Promoted counts) v w ∧
      (∀ home, Abreast (Promoted counts) (v.adoptIn home) (w.adoptIn home)) ∧
      (∀ l, Alike (Promoted counts) (Option.Rel (Object.Alike counts))
        (Value.ownObject ⟨v, l⟩) (Value.ownObject ⟨w, l⟩)) ∧
      ∀ {turns others : List (Ledger × Visit)}, List.Forall₂ (Visit.Turned counts) turns others →
        List.Forall₂ (fun r q =>
          Alike (Promoted counts) (Option.Rel (Answer.Paired counts)) r q ∧
            ReadSame counts (Promoted counts) (leftBy r) (leftBy q))
          (Visit.trace turns v) (Visit.trace others w) := by
  constructor
  · intro t o home room bare
    exact .empty t home room bare
  intro v w promoted
  refine ⟨promoted.readSame, promoted.adoptIn, fun l => ?_, fun paired => ?_⟩
  · exact Value.ownObject_paired v w l promoted
  · exact (Visit.trace_paired paired promoted).imp fun r q alike =>
      ⟨alike, alike.matched.readSame⟩

theorem empty_objects_pass_sample :
    Promoted True .emptyObject (.ofObject {}) ∧
    List.Forall₂ (Visit.Turned True)
      [([], ⟨[], .insertOrAssign "k" .emptyObject⟩), ([], ⟨[.enter (.key "k")], .reserve 2⟩)]
      [([], ⟨[], .insertOrAssign "k" (.ofObject {})⟩), ([], ⟨[.enter (.key "k")], .reserve 2⟩)] ∧
    List.Forall₂ (fun r q =>
      Alike (Promoted True) (Option.Rel (Answer.Paired True)) r q ∧
        ReadSame True (Promoted True) (leftBy r) (leftBy q))
      (Visit.trace [([], ⟨[], .insertOrAssign "k" .emptyObject⟩),
        ([], ⟨[.enter (.key "k")], .reserve 2⟩)] .emptyObject)
      (Visit.trace [([], ⟨[], .insertOrAssign "k" (.ofObject {})⟩),
        ([], ⟨[.enter (.key "k")], .reserve 2⟩)] (.ofObject {})) := by
  have start := (empty_objects_pass True).1 .plain {} rfl (fun _ => rfl) rfl
  have turns : List.Forall₂ (Visit.Turned True)
      [([], ⟨[], .insertOrAssign "k" .emptyObject⟩), ([], ⟨[.enter (.key "k")], .reserve 2⟩)]
      [([], ⟨[], .insertOrAssign "k" (.ofObject {})⟩), ([], ⟨[.enter (.key "k")], .reserve 2⟩)] :=
    .cons ⟨rfl, rfl, .insertOrAssign "k" start⟩ (.cons ⟨rfl, rfl, .bare _ rfl⟩ .nil)
  exact ⟨start, turns, ((empty_objects_pass True).2 start).2.2.2 turns⟩

/-- The two are equal and are objects, but only one of them is searched. -/
theorem empty_object_is_not_searched :
    Value.emptyObject.equals (.ofObject {}) = true ∧
      Value.emptyObject.kind = .object ∧ (Value.ofObject {}).kind = .object ∧
      Value.emptyObject.findOwn? "k" = none ∧
      (Value.ofObject {}).findOwn? "k" = some ({}, 0) :=
  ⟨rfl, rfl, rfl, rfl, rfl⟩

end Passing

end DocTree
