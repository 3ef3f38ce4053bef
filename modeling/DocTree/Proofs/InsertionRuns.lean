import DocTree.Proofs.Adoption
import DocTree.Proofs.Operations
import DocTree.Proofs.PlainList

namespace DocTree.InsertionObject

def plain (o : InsertionObject Value) : PlainList := ⟨o.home, o.members⟩

def Views (o : InsertionObject Value) (p : PlainList) : Prop := Indexed o ∧ o.plain = p

theorem Indexed.position {o : InsertionObject Value} (sound : Indexed o) (key : String) :
    o.find? key = o.plain.position? key := by
  apply Option.ext
  intro pos
  rw [sound.find?_eq_some_iff]
  exact (sound.distinct.findIdx?_eq_some_iff key pos).symm

section Single

variable {o : InsertionObject Value}

theorem Indexed.assignAt (sound : Indexed o) (pos : Nat) (v : Value) :
    Indexed (o.assignAt pos v) :=
  sound.congr (map_key_modify o.members pos v) rfl

theorem views_assignAt (sound : Indexed o) {pos : Nat} {key : String}
    (here : (o.members.map Member.key)[pos]? = some key) (v : Value) :
    Views (o.assignAt pos v) ⟨o.home, o.members.set pos ⟨key, v⟩⟩ :=
  ⟨sound.assignAt pos v, congrArg (PlainList.mk o.home) (modify_eq_set here v)⟩

theorem views_insertAt (sound : Indexed o) (m : Member Value)
    (fresh : m.key ∉ o.members.map Member.key) {pos : Nat} (inside : pos ≤ o.members.length) :
    Views (o.insertAt pos m) ⟨o.home, o.members.take pos ++ m :: o.members.drop pos⟩ :=
  ⟨sound.insertAt m fresh inside,
    congrArg (PlainList.mk o.home) (insertIdx_eq_take_drop o.members m inside)⟩

theorem place_alike (sound : Indexed o) {pos : Nat} (inside : pos ≤ o.members.length)
    (key : String) (v : Value) (overwrite : Bool) (l : Ledger) :
    Alike Views Eq (place pos key v overwrite ⟨o, l⟩)
      (PlainList.place pos key v overwrite ⟨o.plain, l⟩) := by
  unfold place PlainList.place
  rw [subject_bind, subject_bind]
  dsimp only
  rw [← sound.position key]
  cases found : o.find? key with
  | some found =>
    cases overwrite with
    | false => exact .ok rfl ⟨sound, rfl⟩
    | true =>
      exact Alike.charge ⟨sound, rfl⟩ fun w _ _ =>
        .ok rfl (views_assignAt sound ((sound.find?_eq_some_iff key _).mp found) w)
  | none =>
    exact Alike.charge ⟨sound, rfl⟩ fun w _ _ =>
      .ok rfl (views_insertAt sound ⟨key, w⟩ ((sound.find?_eq_none_iff key).mp found) inside)

theorem insertOrAssign_lockstep (key : String) (v : Value) :
    Lockstep Views Eq (insertOrAssign key v) (PlainList.append key v true) := by
  rintro o _ l ⟨sound, rfl⟩
  exact place_alike sound (Nat.le_refl _) key v true l

theorem tryEmplace_lockstep (key : String) (v : Value) :
    Lockstep Views Eq (tryEmplace key v) (PlainList.append key v false) := by
  rintro o _ l ⟨sound, rfl⟩
  exact place_alike sound (Nat.le_refl _) key v false l

theorem insertOrAssignHint_lockstep (hint : Nat) (key : String) (v : Value) :
    Lockstep Views Eq (insertOrAssignHint hint key v) (PlainList.splice hint key v true) := by
  rintro o _ l ⟨sound, rfl⟩
  exact (place_alike sound (Nat.min_le_right hint _) key v true l).bind
    fun _ _ same => .pure (congrArg Prod.fst same)

theorem tryEmplaceHint_lockstep (hint : Nat) (key : String) (v : Value) :
    Lockstep Views Eq (tryEmplaceHint hint key v) (PlainList.splice hint key v false) := by
  rintro o _ l ⟨sound, rfl⟩
  exact (place_alike sound (Nat.min_le_right hint _) key v false l).bind
    fun _ _ same => .pure (congrArg Prod.fst same)

theorem merge_lockstep (source : InsertionObject Value) :
    Lockstep Views Eq (merge source) (PlainList.appendAll source.members false) :=
  .forM fun m _ => (tryEmplace_lockstep m.key m.value).discard

theorem mergeOrUpdate_lockstep (source : InsertionObject Value) :
    Lockstep Views Eq (mergeOrUpdate source) (PlainList.appendAll source.members true) :=
  .forM fun m _ => (insertOrAssign_lockstep m.key m.value).discard

theorem mergeHint_lockstep (hint : Nat) (source : InsertionObject Value) :
    Lockstep Views Eq (mergeHint hint source)
      (PlainList.spliceAll hint source.members false) := by
  rintro o _ l ⟨sound, rfl⟩
  have loop := Lockstep.foldlM (fun pos m (_ : m ∈ source.members) =>
    (tryEmplaceHint_lockstep pos m.key m.value).map (nextPlace pos)) (min hint o.members.length)
  exact loop.discard o o.plain l ⟨sound, rfl⟩

theorem mergeOrUpdateHint_lockstep (hint : Nat) (source : InsertionObject Value) :
    Lockstep Views Eq (mergeOrUpdateHint hint source)
      (PlainList.spliceAll hint source.members true) := by
  rintro o _ l ⟨sound, rfl⟩
  have loop := Lockstep.foldlM (fun pos m (_ : m ∈ source.members) =>
    (insertOrAssignHint_lockstep pos m.key m.value).map (nextPlace pos)) (min hint o.members.length)
  exact loop.discard o o.plain l ⟨sound, rfl⟩

theorem eraseAt_lockstep (pos : Nat) :
    Lockstep Views Eq (eraseAt pos) (PlainList.eraseAt pos) := by
  rintro o _ l ⟨sound, rfl⟩
  unfold eraseAt PlainList.eraseAt
  rw [subject_bind, subject_bind]
  dsimp only [plain]
  cases here : o.members[pos]? with
  | none => exact .error ⟨sound, rfl⟩
  | some m =>
    obtain ⟨inside, -⟩ := List.getElem?_eq_some_iff.mp here
    refine .ok rfl ⟨sound.removeSpan (Nat.le_succ pos) inside, ?_⟩
    exact congrArg (PlainList.mk o.home) (List.eraseIdx_eq_take_drop_succ o.members pos).symm

theorem erase_lockstep (key : String) :
    Lockstep Views Eq (erase key) (PlainList.erase key) := by
  rintro o _ l ⟨sound, rfl⟩
  unfold erase PlainList.erase
  rw [subject_bind, subject_bind]
  dsimp only
  rw [← sound.position key]
  cases o.find? key with
  | none => exact .ok rfl ⟨sound, rfl⟩
  | some pos =>
    exact (eraseAt_lockstep pos o o.plain l ⟨sound, rfl⟩).bind
      fun _ _ same => .pure (congrArg (fun m => some m.value) same)

theorem eraseRange_lockstep (low high : Bound) :
    Lockstep Views Eq (eraseRange low high) (PlainList.eraseRange low high) := by
  rintro o _ l ⟨sound, rfl⟩
  unfold eraseRange PlainList.eraseRange
  rw [subject_bind, subject_bind]
  dsimp only [plain, length]
  cases selected : span low high o.members.length with
  | error fault => exact .error ⟨sound, rfl⟩
  | ok bounds =>
    obtain ⟨start, stop⟩ := bounds
    obtain ⟨ordered, inside⟩ := span_inside selected
    exact .ok rfl ⟨sound.removeSpan ordered inside, rfl⟩

theorem insertRange_members (sound : Indexed o) (incoming : List (Member Value)) :
    (o.insertRange incoming).members = addAllNew Member.key o.members incoming := by
  unfold insertRange
  split
  · rename_i nothing
    rw [List.isEmpty_iff.mp nothing, addAllNew_nil]
  · rw [dedup_members, addAllNew_append, addAllNew_distinct _ [] o.members sound.distinct,
      List.nil_append]

theorem Indexed.insertRange (sound : Indexed o) (incoming : List (Member Value)) :
    Indexed (o.insertRange incoming) := by
  unfold InsertionObject.insertRange
  split
  · exact sound
  · exact indexed_dedup o _

theorem dedup_home (o : InsertionObject Value) (ms : List (Member Value)) :
    (o.dedup ms).home = o.home := by
  unfold dedup
  dsimp only
  split <;> rfl

theorem views_insertRange (sound : Indexed o) (incoming : List (Member Value)) :
    Views (o.insertRange incoming) ⟨o.home, addAllNew Member.key o.members incoming⟩ := by
  have home : (o.insertRange incoming).home = o.home := by
    unfold insertRange
    split
    · rfl
    · exact dedup_home o _
  refine ⟨sound.insertRange incoming, ?_⟩
  rw [plain, home, insertRange_members sound]

theorem extend_lockstep (ms : List (Member Value)) :
    Lockstep Views Eq (extend ms) (PlainList.extend ms) := by
  rintro o _ l ⟨sound, rfl⟩
  exact Alike.charge ⟨sound, rfl⟩ fun incoming _ _ => .ok rfl (views_insertRange sound incoming)

theorem extendSortedUnique_alike {ms : List (Member Value)} (sound : Indexed o)
    (ascending : AscendingBy Member.key ms)
    (fresh : ∀ m ∈ ms, m.key ∉ o.members.map Member.key) (l : Ledger) :
    Alike Views Eq (extendSortedUnique ms ⟨o, l⟩)
      (PlainList.extendSortedUnique ms ⟨o.plain, l⟩) := by
  refine Alike.charge ⟨sound, rfl⟩ fun incoming _ adopted => .ok rfl ⟨indexed_rebuild o ?_, rfl⟩
  have keys : incoming.map Member.key = ms.map Member.key := map_key_adoptMembersIn adopted
  have whole := sound.distinct.append ascending.distinct fresh
  rw [Distinct, List.map_append, keys, ← List.map_append]
  exact whole

theorem assignAt_lockstep (pos : Nat) (v : Value) :
    Lockstep Views Eq (editAt pos (Edit.put v)) (PlainList.assignAt pos v) := by
  rintro o _ l ⟨sound, rfl⟩
  unfold PlainList.assignAt
  rw [subject_bind]
  dsimp only [plain]
  cases here : o.members[pos]? with
  | none =>
    rw [editAt_missing here]
    exact .error ⟨sound, rfl⟩
  | some m =>
    rw [Edit.put, editAt_update here]
    exact .ok rfl (views_assignAt sound (key_at_of_member here) v)

theorem assignKey_lockstep (key : String) (v : Value) :
    Lockstep Views (fun found known => found.isSome = known) (editKey? key (Edit.put v))
      (PlainList.assignKey key v) := by
  rintro o _ l ⟨sound, rfl⟩
  unfold editKey? PlainList.assignKey
  rw [subject_bind, subject_bind]
  dsimp only
  rw [← sound.position key]
  cases found : o.find? key with
  | none => exact .ok rfl ⟨sound, rfl⟩
  | some pos =>
    have keyHere := (sound.find?_eq_some_iff key pos).mp found
    obtain ⟨m, here, -⟩ := (key_at_iff _ _ _).mp keyHere
    dsimp only
    rw [Edit.put, editValue?_update here]
    exact .ok rfl (views_assignAt sound keyHere v)

theorem assignAll_lockstep (f : String → Value → Value) :
    Lockstep Views Eq (ObjectOp.assignAll f) (PlainList.mapValues f) := by
  rintro o _ l ⟨sound, rfl⟩
  rw [assignAll_eq]
  exact .ok rfl ⟨sound.congr (map_key_mapMembers f o.members) rfl, rfl⟩

theorem clear_lockstep :
    Lockstep Views Eq clear (Edit.update fun p => { p with members := [] }) := by
  refine .update ?_
  rintro o _ ⟨sound, rfl⟩
  exact ⟨⟨.refl _, .nil⟩, rfl⟩

theorem reserve_lockstep (additional : Nat) :
    Lockstep Views Eq (reserve additional) (PlainList.reserve additional) := by
  rintro o _ l ⟨sound, rfl⟩
  exact Alike.charge ⟨sound, rfl⟩ fun _ _ _ => .ok rfl ⟨sound.congr rfl rfl, rfl⟩

theorem shrinkToFit_lockstep :
    Lockstep Views Eq (Edit.update shrinkToFit)
      (PlainList.mapValues fun _ v => v.shrinkToFit) := by
  refine .update ?_
  rintro o _ ⟨sound, rfl⟩
  have members : o.shrinkToFit.members = mapMembers (fun _ v => v.shrinkToFit) o.members :=
    Value.shrinkMembers_eq_map o.members
  refine ⟨sound.congr ?_ rfl, congrArg (PlainList.mk o.home) members⟩
  rw [members, map_key_mapMembers]

theorem tryInsertOrAssign_lockstep (key : String) (v : Value) :
    Lockstep Views Eq (tryInsertOrAssign key v) (PlainList.tryAppend key v) := by
  rintro o _ l ⟨sound, rfl⟩
  exact Alike.charge ⟨sound, rfl⟩ fun adopted l' _ =>
    insertOrAssign_lockstep key adopted o o.plain l' ⟨sound, rfl⟩

theorem views_ofMembers (home : Home) (ms : List (Member Value)) :
    Views (ofMembers home ms) ⟨home, addAllNew Member.key [] ms⟩ := by
  refine ⟨indexed_dedup _ ms, ?_⟩
  rw [plain, ofMembers, dedup_home, dedup_members]

theorem renew_alike {origin : ObjectOrigin} {o : InsertionObject Value} (sound : Indexed o)
    (promised : (ObjectOp.renew origin).Promise o) (l : Ledger) :
    Alike Views Eq
      ((Edit.orExhausted origin.build >>= fun o => Edit.put o) ⟨o, l⟩)
      ((Edit.orExhausted (PlainList.renew origin) >>= fun p => Edit.put p) ⟨o.plain, l⟩) := by
  cases origin with
  | empty home => exact .ok rfl ⟨⟨.refl _, .nil⟩, rfl⟩
  | withCapacity home capacity =>
    exact Alike.chargeMade ⟨sound, rfl⟩ fun _ _ _ => .ok rfl ⟨⟨.refl _, .nil⟩, rfl⟩
  | ofMembers home ms =>
    exact Alike.chargeMade ⟨sound, rfl⟩ fun incoming _ _ => .ok rfl (views_ofMembers home incoming)
  | ofSortedUnique ms => exact .ok rfl ⟨indexed_rebuild _ promised.distinct, rfl⟩

end Single

theorem run_alike (op : ObjectOp (InsertionObject Value)) (o : InsertionObject Value)
    (p : PlainList) (l : Ledger) (start : Views o p) (promised : op.Promise o) :
    Alike Views Eq (op.run ⟨o, l⟩) (PlainList.run op ⟨p, l⟩) := by
  cases op with
  | renew origin =>
    obtain ⟨sound, rfl⟩ := start
    exact (renew_alike sound promised l).bind fun _ _ _ => .pure rfl
  | insertOrAssign key v =>
    exact (insertOrAssign_lockstep key v).bind (fun _ _ same => same ▸ .pure rfl) o p l start
  | tryInsertOrAssign key v =>
    exact (tryInsertOrAssign_lockstep key v).bind (fun _ _ same => same ▸ .pure rfl) o p l start
  | tryEmplace key v =>
    exact (tryEmplace_lockstep key v).bind (fun _ _ same => same ▸ .pure rfl) o p l start
  | insertOrAssignHint hint key v =>
    exact (insertOrAssignHint_lockstep hint key v).bind (fun _ _ same => same ▸ .pure rfl)
      o p l start
  | tryEmplaceHint hint key v =>
    exact (tryEmplaceHint_lockstep hint key v).bind (fun _ _ same => same ▸ .pure rfl) o p l start
  | erase key =>
    exact (erase_lockstep key).bind (fun _ _ same => same ▸ .pure rfl) o p l start
  | eraseAt pos =>
    exact (eraseAt_lockstep pos).bind (fun _ _ same => same ▸ .pure rfl) o p l start
  | eraseRange low high => exact (eraseRange_lockstep low high).done o p l start
  | merge source => exact (merge_lockstep source).done o p l start
  | mergeOrUpdate source => exact (mergeOrUpdate_lockstep source).done o p l start
  | mergeHint hint source => exact (mergeHint_lockstep hint source).done o p l start
  | mergeOrUpdateHint hint source => exact (mergeOrUpdateHint_lockstep hint source).done o p l start
  | extend ms => exact (extend_lockstep ms).done o p l start
  | extendSortedUnique ms =>
    obtain ⟨sound, rfl⟩ := start
    exact (extendSortedUnique_alike sound promised.1 promised.2 l).bind fun _ _ _ => .pure rfl
  | assignAt pos v => exact (assignAt_lockstep pos v).done o p l start
  | assignKey key v =>
    exact (assignKey_lockstep key v).bind (fun _ _ same => same ▸ .pure rfl) o p l start
  | assignEach f => exact (assignAll_lockstep f).done o p l start
  | clear => exact clear_lockstep.done o p l start
  | reserve additional => exact (reserve_lockstep additional).done o p l start
  | shrinkToFit => exact shrinkToFit_lockstep.done o p l start

/-- What lookups rely on: the index is the one that belongs to the members, and a search gives the
one position of a key or says that there is none. -/
structure KeyIndex (o : InsertionObject Value) : Prop where
  positions : o.index.Perm (List.range o.members.length)
  ascending : AscendingBy Member.key o.byKey
  built : o.index = buildIndex o.members
  distinct : Distinct o.members
  found : ∀ key pos, o.find? key = some pos ↔ ∃ m, o.members[pos]? = some m ∧ m.key = key
  missing : ∀ key, o.find? key = none ↔ ∀ m ∈ o.members, m.key ≠ key

theorem Indexed.keyIndex {o : InsertionObject Value} (sound : Indexed o) : KeyIndex o where
  positions := sound.positions
  ascending := sound.byKey_ascending
  built := sound.index_eq
  distinct := sound.distinct
  found := by
    intro key pos
    rw [sound.find?_eq_some_iff, key_at_iff]
  missing := by
    intro key
    rw [sound.find?_eq_none_iff, List.mem_map]
    push Not
    rfl

theorem Indexed.get?_eq_lookup {o : InsertionObject Value} (sound : Indexed o) (key : String) :
    o.get? key = lookup o.members key := by
  unfold InsertionObject.get?
  cases found : o.find? key with
  | none => exact ((lookup_eq_none_iff _ _).mpr ((sound.find?_eq_none_iff key).mp found)).symm
  | some pos =>
    obtain ⟨m, here, rfl⟩ := (sound.keyIndex.found key pos).mp found
    rw [lookup_of_position sound.distinct here, Option.bind_some, here]
    rfl

theorem run_views (turns : List (Ledger × ObjectOp (InsertionObject Value)))
    (promised : Promised ObjectOp.Promise ObjectOp.run turns (empty .heap)) :
    List.Forall₂ (Alike Views Eq) (trace ObjectOp.run turns (empty .heap))
      (trace PlainList.run turns {}) :=
  trace_alike run_alike turns (empty .heap) {} ⟨⟨.refl _, .nil⟩, rfl⟩ promised

/-- Members come in bulk and by splicing; the third step fails. -/
def sampleTurns : List (Ledger × ObjectOp (InsertionObject Value)) :=
  [([], .extendSortedUnique [⟨"a", .null⟩, ⟨"c", .null⟩]),
    ([], .insertOrAssignHint 0 "b" .emptyObject),
    ([], .eraseAt 7),
    ([], .eraseRange (.included 1) .unbounded)]

theorem sampleTurns_promised :
    Promised ObjectOp.Promise ObjectOp.run sampleTurns (empty .heap) := by
  refine ⟨⟨?_, ?_⟩, trivial, trivial, trivial, trivial⟩
  · unfold AscendingBy
    decide
  · intro m _ present
    cases present

/-- After every step of a run, a failed one included, the index is sound. -/
theorem keyIndex_along_runs (turns : List (Ledger × ObjectOp (InsertionObject Value)))
    (promised : Promised ObjectOp.Promise ObjectOp.run turns (empty .heap)) :
    ∀ result ∈ trace ObjectOp.run turns (empty .heap), KeyIndex (leftBy result) :=
  forall_of_alike (fun _ _ views => views.1.keyIndex) (run_views turns promised)

theorem keyIndex_along_sample :
    Promised ObjectOp.Promise ObjectOp.run sampleTurns (empty .heap) ∧
      ∀ result ∈ trace ObjectOp.run sampleTurns (empty .heap), KeyIndex (leftBy result) :=
  ⟨sampleTurns_promised, keyIndex_along_runs sampleTurns sampleTurns_promised⟩

end DocTree.InsertionObject
