import DocTree.Proofs.Adoption
import DocTree.Proofs.Failing
import DocTree.Proofs.KeyedMap
import DocTree.Proofs.Ordered

namespace DocTree.Object

structure Lists (o : Object Value) (d : KeyedMap) : Prop where
  ordered : Ordered o
  home : o.home = d.home
  lookup : ∀ key, lookup o.members key = d.entries.lookup key

section Reading

variable {o : Object Value} {d : KeyedMap}

theorem Lists.members (lists : Lists o d) : o.members = d.entries.listing := by
  apply lists.ordered.ext_lookup d.entries.listing_ascending
  intro key
  rw [lists.lookup, Entries.lookup_listing]

theorem Lists.length (lists : Lists o d) : o.members.length = d.entries.keys.card := by
  rw [lists.members, Entries.length_listing]

theorem Lists.mem_iff (lists : Lists o d) (key : String) :
    key ∈ o.members.map Member.key ↔ key ∈ d.entries := by
  rw [← lookup_isSome_iff, lists.lookup, Finmap.lookup_isSome]

theorem Lists.rank (lists : Lists o d) (key : String) :
    o.lowerBound 0 key = d.entries.rank key := by
  obtain ⟨front, back, whole, stop, below, notBelow⟩ := AscendingBy.split lists.ordered key
  -- The keys below are those in front of the lower bound.
  have keys : d.entries.keys.filter (· < key) = (front.map Member.key).toFinset := by
    ext k
    rw [Finset.mem_filter, Finmap.mem_keys, ← lists.mem_iff, List.mem_toFinset, whole,
      List.map_append, List.mem_append]
    constructor
    · rintro ⟨inFront | inBack, less⟩
      · exact inFront
      · obtain ⟨m, hm, rfl⟩ := List.mem_map.mp inBack
        exact absurd less (not_lt_of_ge (notBelow m hm))
    · intro inFront
      obtain ⟨m, hm, rfl⟩ := List.mem_map.mp inFront
      exact ⟨.inl inFront, below m hm⟩
  have distinct : (front.map Member.key).Nodup := by
    have ascending := lists.ordered
    rw [Ordered, whole] at ascending
    exact (ascending.sublist (List.sublist_append_left front back)).nodup
  rw [Ordered.lowerBound_zero, stop, Entries.rank, keys, List.toFinset_card_of_nodup distinct,
    List.length_map]

theorem Lists.find? (lists : Lists o d) (key : String) :
    o.find? key = if key ∈ d.entries then some (d.entries.rank key) else none := by
  unfold Object.find?
  dsimp only
  rw [← lists.rank]
  by_cases known : key ∈ d.entries
  · rw [if_pos known, if_pos ((lists.ordered.keyAt?_lowerBound key).mpr
      ((lists.mem_iff key).mpr known))]
  · rw [if_neg known, if_neg fun here => known ((lists.mem_iff key).mp
      ((lists.ordered.keyAt?_lowerBound key).mp here))]

theorem Lists.atRank (lists : Lists o d) {key : String} (known : key ∈ d.entries) :
    (o.members.map Member.key)[d.entries.rank key]? = some key := by
  rw [← lists.rank, List.getElem?_map]
  exact (lists.ordered.keyAt?_lowerBound key).mpr ((lists.mem_iff key).mpr known)

end Reading

section Changes

variable {o : Object Value} {d : KeyedMap}

theorem Lists.assigned (lists : Lists o d) {pos : Nat} {key : String}
    (here : (o.members.map Member.key)[pos]? = some key) (v : Value) :
    Lists (o.assignAt pos v) { d with entries := d.entries.insert key v } where
  ordered := lists.ordered.assignAt pos v
  home := lists.home
  lookup := by
    intro other
    rw [Entries.lookup_insert, ← lists.lookup]
    exact lookup_modify lists.ordered.distinct here v other

theorem Lists.inserted (lists : Lists o d) {key : String} (unknown : key ∉ d.entries)
    (v : Value) :
    Lists (o.insertAt (o.lowerBound 0 key) ⟨key, v⟩)
      { d with entries := d.entries.insert key v } := by
  have fresh : key ∉ o.members.map Member.key := fun known => unknown ((lists.mem_iff key).mp known)
  refine ⟨lists.ordered.insertAt ⟨key, v⟩ fresh, lists.home, fun other => ?_⟩
  rw [Entries.lookup_insert, ← lists.lookup]
  exact lists.ordered.lookup_insertAt ⟨key, v⟩ fresh other

theorem Lists.erased (lists : Lists o d) {pos : Nat} {key : String}
    (here : (o.members.map Member.key)[pos]? = some key) :
    Lists { o with members := o.members.eraseIdx pos }
      { d with entries := d.entries.erase key } where
  ordered := AscendingBy.sublist lists.ordered (List.eraseIdx_sublist _ pos)
  home := lists.home
  lookup := by
    intro other
    rw [Entries.lookup_erase, ← lists.lookup]
    exact lookup_eraseIdx lists.ordered.distinct here other

theorem place_alike (lists : Lists o d) (key : String) (v : Value) (overwrite : Bool)
    (l : Ledger) :
    Alike Lists Eq (place (o.lowerBound 0 key) key v overwrite ⟨o, l⟩)
      (KeyedMap.assign key v overwrite ⟨d, l⟩) := by
  unfold place KeyedMap.assign
  rw [subject_bind, subject_bind]
  dsimp only
  have standing : o.keyAt? (o.lowerBound 0 key) = some key ↔ key ∈ d.entries :=
    (lists.ordered.keyAt?_lowerBound key).trans (lists.mem_iff key)
  by_cases known : key ∈ d.entries
  · rw [if_pos (standing.mpr known), if_pos known, lists.home, ← lists.rank]
    cases overwrite with
    | false => exact .ok rfl lists
    | true =>
      have here := lists.atRank known
      rw [← lists.rank] at here
      exact Alike.charge lists fun w _ _ => .ok rfl (lists.assigned here w)
  · rw [if_neg fun here => known (standing.mp here), if_neg known, lists.home, ← lists.rank]
    exact Alike.charge lists fun w _ _ => .ok rfl (lists.inserted known w)

theorem insertOrAssign_lockstep (key : String) (v : Value) :
    Lockstep Lists Eq (insertOrAssign key v) (KeyedMap.assign key v true) :=
  fun _ _ l lists => place_alike lists key v true l

theorem tryEmplace_lockstep (key : String) (v : Value) :
    Lockstep Lists Eq (tryEmplace key v) (KeyedMap.assign key v false) :=
  fun _ _ l lists => place_alike lists key v false l

theorem tryInsertOrAssign_lockstep (key : String) (v : Value) :
    Lockstep Lists Eq (tryInsertOrAssign key v) (KeyedMap.tryAssign key v) := by
  intro o d l lists
  unfold tryInsertOrAssign KeyedMap.tryAssign
  rw [subject_bind, subject_bind]
  dsimp only
  rw [← lists.home]
  exact Alike.charge lists fun adopted l' _ => insertOrAssign_lockstep key adopted o d l' lists

theorem insertOrAssignHint_ranks (hint : Nat) (key : String) (v : Value) :
    Lockstep Lists (fun pos placed => pos = placed.1) (insertOrAssignHint hint key v)
      (KeyedMap.assign key v true) := by
  intro o d l lists
  unfold insertOrAssignHint
  rw [subject_bind]
  dsimp only
  rw [lists.ordered.lowerBound_searchStart]
  exact (place_alike lists key v true l).mapLeft Prod.fst fun _ _ => congrArg Prod.fst

theorem tryEmplaceHint_ranks (hint : Nat) (key : String) (v : Value) :
    Lockstep Lists (fun pos placed => pos = placed.1) (tryEmplaceHint hint key v)
      (KeyedMap.assign key v false) := by
  intro o d l lists
  unfold tryEmplaceHint
  rw [subject_bind]
  dsimp only
  rw [lists.ordered.lowerBound_searchStart]
  exact (place_alike lists key v false l).mapLeft Prod.fst fun _ _ => congrArg Prod.fst

theorem merge_lockstep (source : Object Value) :
    Lockstep Lists Eq (merge source) (KeyedMap.assignAll source.members false) :=
  .forM fun m _ => (tryEmplace_lockstep m.key m.value).discard

theorem mergeOrUpdate_lockstep (source : Object Value) :
    Lockstep Lists Eq (mergeOrUpdate source) (KeyedMap.assignAll source.members true) :=
  .forM fun m _ => (insertOrAssign_lockstep m.key m.value).discard

theorem mergeHint_lockstep (hint : Nat) (source : Object Value) :
    Lockstep Lists Eq (mergeHint hint source) (KeyedMap.assignAll source.members false) := by
  intro o d l lists
  have loop := Lockstep.foldlM_forM (fun pos m (_ : m ∈ source.members) x y l start =>
    (tryEmplaceHint_ranks pos m.key m.value x y l start).mapRight (fun _ => ())
      fun _ _ _ => trivial) hint
  exact (loop o d l lists).mapLeft _ fun _ _ _ => rfl

theorem mergeOrUpdateHint_lockstep (hint : Nat) (source : Object Value) :
    Lockstep Lists Eq (mergeOrUpdateHint hint source)
      (KeyedMap.assignAll source.members true) := by
  intro o d l lists
  have loop := Lockstep.foldlM_forM (fun pos m (_ : m ∈ source.members) x y l start =>
    (insertOrAssignHint_ranks pos m.key m.value x y l start).mapRight (fun _ => ())
      fun _ _ _ => trivial) hint
  exact (loop o d l lists).mapLeft _ fun _ _ _ => rfl

theorem eraseAt_lockstep (pos : Nat) :
    Lockstep Lists Eq (eraseAt pos) (KeyedMap.eraseAt pos) := by
  intro o d l lists
  unfold eraseAt KeyedMap.eraseAt
  rw [subject_bind, subject_bind]
  dsimp only
  rw [← lists.members]
  cases here : o.members[pos]? with
  | none => exact .error lists
  | some m => exact .ok rfl (lists.erased (key_at_of_member here))

theorem eraseAt_member {pos : Nat} {m : Member Value} (here : o.members[pos]? = some m)
    (l : Ledger) :
    eraseAt pos ⟨o, l⟩ = .ok m ⟨{ o with members := o.members.eraseIdx pos }, l⟩ := by
  unfold eraseAt
  rw [subject_bind]
  dsimp only
  rw [here]
  rfl

theorem erase_lockstep (key : String) :
    Lockstep Lists Eq (erase key) (KeyedMap.erase key) := by
  intro o d l lists
  unfold erase KeyedMap.erase
  rw [subject_bind, subject_bind]
  dsimp only
  rw [lists.find?]
  by_cases known : key ∈ d.entries
  · rw [if_pos known]
    obtain ⟨m, here, rfl⟩ := (key_at_iff _ _ _).mp (lists.atRank known)
    have held : d.entries.lookup m.key = some m.value := by
      rw [← lists.lookup, lookup_of_position lists.ordered.distinct here]
    dsimp only
    rw [bind_of_ok (eraseAt_member here l)]
    exact .ok held.symm (lists.erased (key_at_of_member here))
  · rw [if_neg known]
    have nothing := Finmap.lookup_eq_none.mpr known
    refine .ok nothing.symm ⟨lists.ordered, lists.home, fun other => ?_⟩
    dsimp only
    rw [Entries.lookup_erase, lists.lookup]
    split
    · rename_i same
      exact same ▸ nothing
    · rfl

theorem eraseRange_lockstep (low high : Bound) :
    Lockstep Lists Eq (eraseRange low high) (KeyedMap.eraseRange low high) := by
  intro o d l lists
  unfold eraseRange KeyedMap.eraseRange
  rw [subject_bind, subject_bind]
  dsimp only [length]
  rw [lists.length]
  cases selected : span low high d.entries.keys.card with
  | error fault => exact .error lists
  | ok bounds =>
    obtain ⟨start, stop⟩ := bounds
    obtain ⟨forward, inside⟩ := span_inside selected
    refine .ok rfl ⟨?_, lists.home, fun key => ?_⟩
    · exact AscendingBy.sublist lists.ordered (eraseSpan_sublist o.members forward)
    · dsimp only
      rw [lookup_eraseSpan lists.ordered.distinct forward, Entries.lookup_eraseAll, lists.lookup,
        lists.members, Entries.map_key_listing]

theorem Lists.extended (lists : Lists o d) (incoming : List (Member Value)) :
    Lists (o.insertRange incoming) { d with entries := d.entries.addAllNew incoming } where
  ordered := (lists.ordered.insertRange incoming).1
  home := by
    have kept : (o.insertRange incoming).home = o.home := by
      unfold insertRange
      split <;> rfl
    exact kept.trans lists.home
  lookup := by
    intro key
    rw [(lists.ordered.insertRange incoming).2, Entries.lookup_addAllNew, lists.lookup]

theorem Lists.extendedSorted (lists : Lists o d) {incoming : List (Member Value)}
    (ascending : AscendingBy Member.key incoming)
    (fresh : ∀ m ∈ incoming, m.key ∉ o.members.map Member.key) :
    Lists (o.insertSortedUnique incoming)
      { d with entries := d.entries.addAllNew incoming } := by
  obtain ⟨ordered, perm⟩ := lists.ordered.insertSortedUnique ascending fresh
  have home : (o.insertSortedUnique incoming).home = o.home := by
    unfold insertSortedUnique
    dsimp only
    split
    · split <;> rfl
    · rfl
  refine ⟨ordered, home.trans lists.home, fun key => ?_⟩
  rw [lookup_perm perm ordered.distinct, lookup_append, Entries.lookup_addAllNew, lists.lookup]

theorem extend_lockstep (ms : List (Member Value)) :
    Lockstep Lists Eq (extend ms) (KeyedMap.extend ms) := by
  rintro o ⟨home, entries⟩ l lists
  obtain rfl : o.home = home := lists.home
  exact Alike.charge lists fun incoming _ _ => .ok rfl (lists.extended incoming)

theorem extendSortedUnique_alike {ms : List (Member Value)} (lists : Lists o d)
    (ascending : AscendingBy Member.key ms)
    (fresh : ∀ m ∈ ms, m.key ∉ o.members.map Member.key) (l : Ledger) :
    Alike Lists Eq (extendSortedUnique ms ⟨o, l⟩) (KeyedMap.extend ms ⟨d, l⟩) := by
  obtain ⟨home, entries⟩ := d
  obtain rfl : o.home = home := lists.home
  refine Alike.charge lists fun incoming _ adopted => .ok rfl ?_
  have keys : incoming.map Member.key = ms.map Member.key := map_key_adoptMembersIn adopted
  apply lists.extendedSorted (ascending.congr keys)
  intro m member
  have amongMs : m.key ∈ ms.map Member.key := keys ▸ List.mem_map_of_mem member
  obtain ⟨n, inMs, same⟩ := List.mem_map.mp amongMs
  exact same ▸ fresh n inMs

theorem assignAt_lockstep (pos : Nat) (v : Value) :
    Lockstep Lists Eq (editAt pos (Edit.put v)) (KeyedMap.assignAt pos v) := by
  intro o d l lists
  unfold KeyedMap.assignAt
  rw [subject_bind]
  dsimp only
  rw [← lists.members, ← lists.length]
  cases here : o.members[pos]? with
  | none =>
    rw [editAt_missing here]
    exact .error lists
  | some m =>
    rw [Edit.put, editAt_update here]
    exact .ok rfl (lists.assigned (key_at_of_member here) v)

theorem assignKey_lockstep (key : String) (v : Value) :
    Lockstep Lists (fun found known => found.isSome = known) (editKey? key (Edit.put v))
      (KeyedMap.assignKey key v) := by
  intro o d l lists
  unfold editKey? KeyedMap.assignKey
  rw [subject_bind, subject_bind]
  dsimp only
  rw [lists.find?]
  by_cases known : key ∈ d.entries
  · rw [if_pos known, if_pos known]
    obtain ⟨m, here, rfl⟩ := (key_at_iff _ _ _).mp (lists.atRank known)
    dsimp only
    rw [Edit.put, editValue?_update here]
    exact .ok rfl (lists.assigned (key_at_of_member here) v)
  · rw [if_neg known, if_neg known]
    exact .ok rfl lists

theorem Lists.mapped (lists : Lists o d) (f : String → Value → Value) {p : Object Value}
    (members : p.members = mapMembers f o.members) (home : p.home = o.home) :
    Lists p { d with entries := Entries.addAllNew ∅ (mapMembers f d.entries.listing) } where
  ordered := by
    have keys := map_key_mapMembers f o.members
    rw [← members] at keys
    exact AscendingBy.congr lists.ordered keys
  home := home.trans lists.home
  lookup := by
    intro key
    rw [Entries.lookup_addAllNew, Finmap.lookup_empty, Option.none_or, members, lists.members]

theorem assignAll_lockstep (f : String → Value → Value) :
    Lockstep Lists Eq (ObjectOp.assignAll f) (KeyedMap.mapValues f) := by
  intro o d l lists
  rw [assignAll_eq]
  exact .ok rfl (lists.mapped f rfl rfl)

theorem shrinkToFit_lockstep :
    Lockstep Lists Eq (Edit.update shrinkToFit)
      (KeyedMap.mapValues fun _ v => v.shrinkToFit) :=
  .update fun o _ lists => lists.mapped _ (Value.shrinkMembers_eq_map o.members) rfl

theorem lists_empty (home : Home) (capacity : Nat) :
    Lists { home, capacity } { home } :=
  ⟨.nil, rfl, fun _ => rfl⟩

theorem clear_lockstep :
    Lockstep Lists Eq clear (Edit.update fun d => { d with entries := ∅ }) :=
  .update fun _ _ lists => ⟨.nil, lists.home, fun _ => rfl⟩

theorem reserve_lockstep (additional : Nat) :
    Lockstep Lists Eq (reserve additional) (KeyedMap.reserve additional) := by
  intro o d l lists
  unfold reserve KeyedMap.reserve
  rw [subject_bind, subject_bind]
  dsimp only [length]
  rw [lists.length]
  exact Alike.charge lists fun _ _ _ => .ok rfl ⟨lists.ordered, lists.home, lists.lookup⟩

theorem renew_alike {origin : ObjectOrigin} (lists : Lists o d)
    (promised : (ObjectOp.renew origin).Promise o) (l : Ledger) :
    Alike Lists Eq
      ((Edit.orExhausted origin.build >>= fun o => Edit.put o) ⟨o, l⟩)
      ((Edit.orExhausted (KeyedMap.renew origin) >>= fun d => Edit.put d) ⟨d, l⟩) := by
  cases origin with
  | empty home => exact .ok rfl (lists_empty home 0)
  | withCapacity home capacity =>
    exact Alike.chargeMade lists fun _ _ _ => .ok rfl (lists_empty home capacity)
  | ofMembers home ms =>
    refine Alike.chargeMade lists fun incoming _ _ => .ok rfl ⟨?_, rfl, fun key => ?_⟩
    · exact ofMembers_ascending home incoming
    · rw [Entries.lookup_addAllNew, Finmap.lookup_empty, Option.none_or]
      exact lookup_ofMembers home incoming key
  | ofSortedUnique ms =>
    refine .ok rfl ((lists_empty .heap 0).extendedSorted promised fun m _ present => ?_)
    cases present

end Changes

theorem run_alike (op : ObjectOp (Object Value)) (o : Object Value) (d : KeyedMap) (l : Ledger)
    (lists : Lists o d) (promised : op.Promise o) :
    Alike Lists Eq (op.run ⟨o, l⟩) (KeyedMap.run op ⟨d, l⟩) := by
  cases op with
  | renew origin => exact (renew_alike lists promised l).bind fun _ _ _ => .pure rfl
  | insertOrAssign key v =>
    exact (insertOrAssign_lockstep key v).bind (fun _ _ same => same ▸ .pure rfl) o d l lists
  | tryInsertOrAssign key v =>
    exact (tryInsertOrAssign_lockstep key v).bind (fun _ _ same => same ▸ .pure rfl) o d l lists
  | tryEmplace key v =>
    exact (tryEmplace_lockstep key v).bind (fun _ _ same => same ▸ .pure rfl) o d l lists
  | insertOrAssignHint hint key v =>
    exact (insertOrAssignHint_ranks hint key v).bind (fun _ _ same => same ▸ .pure rfl) o d l lists
  | tryEmplaceHint hint key v =>
    exact (tryEmplaceHint_ranks hint key v).bind (fun _ _ same => same ▸ .pure rfl) o d l lists
  | erase key =>
    exact (erase_lockstep key).bind (fun _ _ same => same ▸ .pure rfl) o d l lists
  | eraseAt pos =>
    exact (eraseAt_lockstep pos).bind (fun _ _ same => same ▸ .pure rfl) o d l lists
  | eraseRange low high => exact (eraseRange_lockstep low high).done o d l lists
  | merge source => exact (merge_lockstep source).done o d l lists
  | mergeOrUpdate source => exact (mergeOrUpdate_lockstep source).done o d l lists
  | mergeHint hint source => exact (mergeHint_lockstep hint source).done o d l lists
  | mergeOrUpdateHint hint source => exact (mergeOrUpdateHint_lockstep hint source).done o d l lists
  | extend ms => exact (extend_lockstep ms).done o d l lists
  | extendSortedUnique ms =>
    exact (extendSortedUnique_alike lists promised.1 promised.2 l).bind fun _ _ _ => .pure rfl
  | assignAt pos v => exact (assignAt_lockstep pos v).done o d l lists
  | assignKey key v =>
    exact (assignKey_lockstep key v).bind (fun _ _ same => same ▸ .pure rfl) o d l lists
  | assignEach f => exact (assignAll_lockstep f).done o d l lists
  | clear => exact clear_lockstep.done o d l lists
  | reserve additional => exact (reserve_lockstep additional).done o d l lists
  | shrinkToFit => exact shrinkToFit_lockstep.done o d l lists

section Failing

theorem place_exhausting (pos : Nat) (key : String) (v : Value) (overwrite : Bool) :
    Exhausting (place pos key v overwrite) := by
  apply Exhausting.subject.bind
  intro o
  have adopting : Exhausting (Edit.orExhausted (v.adoptIn o.home) : Edit (Object Value) Value) :=
    .orExhausted (Value.adoptIn_copying o.home v)
  dsimp only
  split
  · cases overwrite with
    | false => exact .pure _
    | true => exact adopting.bind fun w => (Exhausting.update _).bind fun _ => .pure _
  · exact adopting.bind fun w => (Exhausting.update _).bind fun _ => .pure _

theorem insertOrAssign_exhausting (key : String) (v : Value) :
    Exhausting (insertOrAssign key v) :=
  Exhausting.subject.bind fun _ => place_exhausting _ key v true

theorem tryEmplace_exhausting (key : String) (v : Value) : Exhausting (tryEmplace key v) :=
  Exhausting.subject.bind fun _ => place_exhausting _ key v false

theorem merge_exhausting (source : Object Value) : Exhausting (merge source) :=
  .forM fun m => (tryEmplace_exhausting m.key m.value).discard

theorem mergeOrUpdate_exhausting (source : Object Value) : Exhausting (mergeOrUpdate source) :=
  .forM fun m => (insertOrAssign_exhausting m.key m.value).discard

end Failing

theorem Lists.get? {o : Object Value} {d : KeyedMap} (lists : Lists o d) (key : String) :
    o.get? key = d.entries.lookup key := by
  unfold Object.get?
  rw [lists.find?]
  by_cases known : key ∈ d.entries
  · obtain ⟨m, here, rfl⟩ := (key_at_iff _ _ _).mp (lists.atRank known)
    rw [if_pos known, Option.bind_some, here, ← lists.lookup,
      lookup_of_position lists.ordered.distinct here]
    rfl
  · rw [if_neg known, Finmap.lookup_eq_none.mpr known]
    rfl

/-- Members come in bulk and one by one, with a wrong hint; the third step fails. -/
def sampleTurns : List (Ledger × ObjectOp (Object Value)) :=
  [([], .extendSortedUnique [⟨"a", .null⟩, ⟨"c", .null⟩]),
    ([], .insertOrAssignHint 1 "b" .emptyObject),
    ([], .eraseAt 7),
    ([], .eraseRange (.included 1) .unbounded)]

theorem sampleTurns_promised :
    Promised ObjectOp.Promise ObjectOp.run sampleTurns (empty .heap) := by
  refine ⟨⟨?_, ?_⟩, trivial, trivial, trivial, trivial⟩
  · unfold AscendingBy
    decide
  · intro m _ present
    cases present

end DocTree.Object
