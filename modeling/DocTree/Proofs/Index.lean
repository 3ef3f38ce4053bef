import Mathlib.Data.List.Range
import DocTree.Proofs.FirstOfKey

namespace DocTree.InsertionObject

variable {α : Type}

/-- The index lists every position once, and the keys strictly ascend along it. -/
structure Indexed (o : InsertionObject α) : Prop where
  positions : o.index.Perm (List.range o.members.length)
  ascending : AscendingBy o.keyAt o.index

theorem keyAt_eq_iff {o : InsertionObject α} {pos : Nat} (inside : pos < o.members.length)
    (key : String) : o.keyAt pos = key ↔ (o.members.map Member.key)[pos]? = some key := by
  simp [keyAt, List.getElem?_eq_getElem inside]

theorem keyAt_of_getElem? {o : InsertionObject α} {pos : Nat} {m : Member α}
    (here : o.members[pos]? = some m) : o.keyAt pos = m.key := by
  simp [keyAt, here]

theorem keyAt_congr {o p : InsertionObject α}
    (same : o.members.map Member.key = p.members.map Member.key) : o.keyAt = p.keyAt := by
  funext pos
  have atPos := congrArg (·[pos]?) same
  simp only [List.getElem?_map] at atPos
  rw [keyAt, keyAt]
  exact congrArg (·.getD "") atPos

theorem map_keyAt_range (o : InsertionObject α) :
    (List.range o.members.length).map o.keyAt = o.members.map Member.key := by
  apply List.ext_getElem (by simp)
  intro i inRange inside
  have here : i < o.members.length := by simpa using inside
  simp [keyAt, List.getElem?_eq_getElem here]

namespace Indexed

variable {o : InsertionObject α}

theorem mem_index (sound : Indexed o) (pos : Nat) : pos ∈ o.index ↔ pos < o.members.length := by
  rw [sound.positions.mem_iff, List.mem_range]

theorem distinct (sound : Indexed o) : Distinct o.members := by
  have keys := (sound.positions.map o.keyAt).nodup_iff.mp sound.ascending.nodup
  rwa [map_keyAt_range] at keys

theorem congr (sound : Indexed o) {p : InsertionObject α}
    (keys : p.members.map Member.key = o.members.map Member.key) (index : p.index = o.index) :
    Indexed p := by
  have size : p.members.length = o.members.length := by
    simpa using congrArg List.length keys
  constructor
  · rw [index, size]
    exact sound.positions
  · rw [index, keyAt_congr keys]
    exact sound.ascending

theorem find?_eq_some_iff (sound : Indexed o) (key : String) (pos : Nat) :
    o.find? key = some pos ↔ (o.members.map Member.key)[pos]? = some key := by
  have hit : o.find? key = some pos ↔
      o.index[o.indexLowerBound key]? = some pos ∧ o.keyAt pos = key := by
    unfold find?
    cases o.index[o.indexLowerBound key]? with
    | none => simp
    | some found =>
      by_cases same : o.keyAt found = key
      · simp only [if_pos same, Option.some.injEq, iff_self_and]
        rintro rfl
        exact same
      · simp only [if_neg same, reduceCtorEq, Option.some.injEq, false_iff, not_and]
        rintro rfl
        exact same
  rw [hit, indexLowerBound, sound.ascending.found_iff, sound.mem_index]
  constructor
  · rintro ⟨inside, same⟩
    exact (keyAt_eq_iff inside key).mp same
  · intro here
    have inside : pos < o.members.length := by
      simpa using (List.getElem?_eq_some_iff.mp here).1
    exact ⟨inside, (keyAt_eq_iff inside key).mpr here⟩

theorem find?_eq_none_iff (sound : Indexed o) (key : String) :
    o.find? key = none ↔ key ∉ o.members.map Member.key := by
  rw [Option.eq_none_iff_forall_ne_some]
  simp only [ne_eq, sound.find?_eq_some_iff, List.mem_iff_getElem?, not_exists]

theorem byKey_ascending (sound : Indexed o) : AscendingBy Member.key o.byKey := by
  refine List.pairwise_filterMap.mpr (sound.ascending.imp ?_)
  intro i j below a ha b hb
  rwa [keyAt_of_getElem? ha, keyAt_of_getElem? hb] at below

theorem filterMap_range (ms : List (Member α)) :
    (List.range ms.length).filterMap (ms[·]?) = ms := by
  induction ms with
  | nil => rfl
  | cons m ms ih =>
    rw [List.length_cons, List.range_succ_eq_map, List.filterMap_cons, List.filterMap_map]
    exact congrArg (m :: ·) ih

theorem byKey_perm (sound : Indexed o) : o.byKey.Perm o.members := by
  have read := sound.positions.filterMap (o.members[·]?)
  rwa [filterMap_range] at read

theorem lookup_byKey (sound : Indexed o) (key : String) :
    lookup o.byKey key = lookup o.members key :=
  lookup_perm sound.byKey_perm sound.byKey_ascending.distinct key

end Indexed

section Building

theorem sortedPositions_perm (ms : List (Member α)) : (sortedPositions ms).Perm ms.zipIdx :=
  List.mergeSort_perm _ _

theorem buildIndex_perm (ms : List (Member α)) :
    (buildIndex ms).Perm (List.range ms.length) := by
  have perm := (sortedPositions_perm ms).map Prod.snd
  rwa [List.zipIdx_map_snd, ← List.range_eq_range'] at perm

theorem keyAt_of_mem_zipIdx {o : InsertionObject α} {p : Member α × Nat}
    (member : p ∈ o.members.zipIdx) : o.keyAt p.2 = p.1.key :=
  keyAt_of_getElem? (List.mem_zipIdx_iff_getElem?.mp member)

theorem ascending_positions {o : InsertionObject α} {ps : List (Member α × Nat)}
    (ascending : AscendingBy (·.1.key) ps) (within : ∀ p ∈ ps, p ∈ o.members.zipIdx) :
    AscendingBy o.keyAt (ps.map Prod.snd) := by
  refine List.pairwise_map.mpr (List.Pairwise.imp_of_mem ?_ ascending)
  intro p q hp hq below
  rwa [keyAt_of_mem_zipIdx (within p hp), keyAt_of_mem_zipIdx (within q hq)]

theorem sortedPositions_ascending {ms : List (Member α)} (distinct : Distinct ms) :
    AscendingBy (·.1.key) (sortedPositions ms) := by
  have sorted : SortedBy (·.1.key) (sortedPositions ms) := sortedBy_mergeSort _ _
  have apart : ((sortedPositions ms).map (·.1.key)).Nodup := by
    have keys := (sortedPositions_perm ms).map (·.1.key)
    apply keys.nodup_iff.mpr
    have first : ms.zipIdx.map (·.1.key) = (ms.zipIdx.map Prod.fst).map Member.key := by
      rw [List.map_map]
      rfl
    rw [first, List.zipIdx_map_fst]
    exact distinct
  exact (sorted.and (List.pairwise_map.mp apart)).imp fun h => lt_of_le_of_ne h.1 h.2

theorem indexed_rebuild (o : InsertionObject α) {ms : List (Member α)}
    (distinct : Distinct ms) : Indexed (o.rebuild ms) where
  positions := buildIndex_perm ms
  ascending := ascending_positions (sortedPositions_ascending distinct)
    fun _ hp => (sortedPositions_perm ms).mem_iff.mp hp

theorem Indexed.index_eq {o : InsertionObject α} (sound : Indexed o) :
    o.index = buildIndex o.members := by
  have built := indexed_rebuild o sound.distinct
  refine sound.ascending.ext built.ascending fun pos => ?_
  rw [sound.positions.mem_iff, (buildIndex_perm o.members).mem_iff]

end Building

section Changes

variable {o : InsertionObject α}

/-- The place of an old position once a member stands at `pos`. -/
def shifted (pos p : Nat) : Nat := if pos ≤ p then p + 1 else p

theorem insertAt_index (sound : Indexed o) (pos : Nat) (m : Member α) :
    (o.insertAt pos m).index =
      (o.index.map (shifted pos)).insertIdx (o.indexLowerBound m.key) pos := by
  have moved : (if pos < o.members.length then o.index.map (shifted pos) else o.index) =
      o.index.map (shifted pos) := by
    split
    · rfl
    · rename_i atEnd
      have fixed : ∀ p ∈ o.index, shifted pos p = p := fun p hp =>
        if_neg (by have := (sound.mem_index p).mp hp; omega)
      exact ((List.map_congr_left fixed).trans (List.map_id' _)).symm
  exact congrArg (List.insertIdx · _ pos) moved

theorem keyAt_insertAt_self (m : Member α) {pos : Nat} (inside : pos ≤ o.members.length) :
    (o.insertAt pos m).keyAt pos = m.key := by
  apply keyAt_of_getElem? (m := m)
  change (o.members.insertIdx pos m)[pos]? = some m
  rw [List.getElem?_insertIdx_self, if_pos inside]

theorem keyAt_insertAt_shifted (m : Member α) (pos p : Nat) :
    (o.insertAt pos m).keyAt (shifted pos p) = o.keyAt p := by
  have same : (o.members.insertIdx pos m)[shifted pos p]? = o.members[p]? := by
    unfold shifted
    split
    · rw [List.getElem?_insertIdx_of_gt (by omega), Nat.add_sub_cancel]
    · rw [List.getElem?_insertIdx_of_lt (by omega)]
  exact congrArg (fun found => (found.map Member.key).getD "") same

theorem shifted_perm {pos n : Nat} (inside : pos ≤ n) :
    (pos :: (List.range n).map (shifted pos)).Perm (List.range (n + 1)) := by
  have distinct : (pos :: (List.range n).map (shifted pos)).Nodup := by
    refine List.nodup_cons.mpr ⟨?_, List.nodup_range.map ?_⟩
    · simp only [List.mem_map, List.mem_range, shifted, not_exists, not_and]
      intro p _
      split <;> omega
    · intro p q same
      simp only [shifted] at same
      split at same <;> split at same <;> omega
  apply (List.perm_ext_iff_of_nodup distinct List.nodup_range).mpr
  intro p
  simp only [List.mem_cons, List.mem_map, List.mem_range, shifted]
  constructor
  · rintro (rfl | ⟨q, hq, rfl⟩)
    · omega
    · split <;> omega
  · intro hp
    by_cases here : p = pos
    · exact .inl here
    · refine .inr ⟨if p < pos then p else p - 1, ?_, ?_⟩ <;> split <;> (try split) <;> omega

theorem Indexed.insertAt (sound : Indexed o) (m : Member α)
    (fresh : m.key ∉ o.members.map Member.key) {pos : Nat} (inside : pos ≤ o.members.length) :
    Indexed (o.insertAt pos m) := by
  obtain ⟨front, back, whole, stop, below, notBelow⟩ := sound.ascending.split m.key
  -- The new position enters the index between the keys below it and those above it.
  have index : (o.insertAt pos m).index =
      front.map (shifted pos) ++ pos :: back.map (shifted pos) := by
    have place : o.indexLowerBound m.key = (front.map (shifted pos)).length := by
      rw [List.length_map]
      exact stop
    rw [insertAt_index sound, place, whole, List.map_append, insertIdx_between]
  have size : (o.insertAt pos m).members.length = o.members.length + 1 :=
    List.length_insertIdx_of_le_length inside m
  constructor
  · rw [index, size]
    apply List.perm_middle.trans
    rw [← List.map_append, ← whole]
    exact ((sound.positions.map (shifted pos)).cons pos).trans (shifted_perm inside)
  · rw [index]
    refine AscendingBy.between ?_ ?_ ?_
    · rw [← List.map_append, ← whole]
      refine List.pairwise_map.mpr (List.Pairwise.imp ?_ sound.ascending)
      intro p q lower
      rwa [keyAt_insertAt_shifted, keyAt_insertAt_shifted]
    · intro p hp
      obtain ⟨q, hq, rfl⟩ := List.mem_map.mp hp
      rw [keyAt_insertAt_shifted, keyAt_insertAt_self m inside]
      exact below q hq
    · intro p hp
      obtain ⟨q, hq, rfl⟩ := List.mem_map.mp hp
      rw [keyAt_insertAt_shifted, keyAt_insertAt_self m inside]
      refine lt_of_le_of_ne (notBelow q hq) fun same => fresh ?_
      have valid : q < o.members.length := by
        rw [← sound.mem_index, whole]
        exact List.mem_append_right front hq
      exact List.mem_of_getElem? ((keyAt_eq_iff valid m.key).mp same.symm)

/-- The place of an old position once those from `start` to `stop` are gone. -/
def closedUp (start stop p : Nat) : Nat := if stop ≤ p then p - (stop - start) else p

theorem getElem?_eraseSpan {β : Type} (xs : List β) {start stop p : Nat} (ordered : start ≤ stop)
    (inside : stop ≤ xs.length) (outside : p < start ∨ stop ≤ p) :
    (eraseSpan xs start stop)[closedUp start stop p]? = xs[p]? := by
  unfold eraseSpan closedUp
  have size : (xs.take start).length = start := by
    rw [List.length_take, Nat.min_eq_left (ordered.trans inside)]
  split
  · rw [List.getElem?_append_right (by omega), size, List.getElem?_drop]
    congr 1
    omega
  · rw [List.getElem?_append_left (by omega), List.getElem?_take_of_lt (by omega)]

theorem closedUp_perm {start stop n : Nat} (ordered : start ≤ stop) (inside : stop ≤ n) :
    (((List.range n).filter fun p => p < start || stop ≤ p).map (closedUp start stop)).Perm
      (List.range (n - (stop - start))) := by
  have distinct : (((List.range n).filter fun p => p < start || stop ≤ p).map
      (closedUp start stop)).Nodup := by
    apply (List.nodup_range.filter _).map_on
    intro p hp q hq same
    simp only [List.mem_filter, Bool.or_eq_true, decide_eq_true_eq] at hp hq
    simp only [closedUp] at same
    split at same <;> split at same <;> omega
  apply (List.perm_ext_iff_of_nodup distinct List.nodup_range).mpr
  intro p
  simp only [List.mem_map, List.mem_filter, List.mem_range, Bool.or_eq_true, decide_eq_true_eq,
    closedUp]
  constructor
  · rintro ⟨q, ⟨hq, outside⟩, rfl⟩
    split <;> omega
  · intro hp
    by_cases before : p < start
    · exact ⟨p, ⟨by omega, .inl before⟩, if_neg (by omega)⟩
    · refine ⟨p + (stop - start), ⟨by omega, .inr (by omega)⟩, ?_⟩
      rw [if_pos (by omega), Nat.add_sub_cancel]

theorem Indexed.removeSpan (sound : Indexed o) {start stop : Nat} (ordered : start ≤ stop)
    (inside : stop ≤ o.members.length) : Indexed (o.removeSpan start stop) := by
  have keyAt_closedUp : ∀ p ∈ o.index.filter fun p => p < start || stop ≤ p,
      (o.removeSpan start stop).keyAt (closedUp start stop p) = o.keyAt p := by
    intro p hp
    have outside : p < start ∨ stop ≤ p := by simpa using (List.mem_filter.mp hp).2
    exact congrArg (fun found => (found.map Member.key).getD "")
      (getElem?_eraseSpan o.members ordered inside outside)
  have size : (o.removeSpan start stop).members.length = o.members.length - (stop - start) := by
    change (o.members.take start ++ o.members.drop stop).length = _
    rw [List.length_append, List.length_take, List.length_drop]
    omega
  constructor
  · rw [size]
    exact ((sound.positions.filter _).map _).trans (closedUp_perm ordered inside)
  · refine List.pairwise_map.mpr (List.Pairwise.imp_of_mem ?_
      (sound.ascending.sublist List.filter_sublist))
    intro p q hp hq below
    rwa [← keyAt_closedUp p hp, ← keyAt_closedUp q hq] at below

def firstPositions (ms : List (Member α)) : List (Member α × Nat) :=
  addAllNew (·.1.key) [] ms.zipIdx

theorem heads_perm (ms : List (Member α)) :
    (runHeads (·.1.key) none (sortedPositions ms)).Perm (firstPositions ms) :=
  runHeads_perm_firsts (·.1.key) ms.zipIdx

theorem firstPositions_sublist (ms : List (Member α)) : (firstPositions ms).Sublist ms.zipIdx :=
  addAllNew_sublist _ [] ms.zipIdx

theorem map_fst_firstPositions (ms : List (Member α)) :
    (firstPositions ms).map Prod.fst = addAllNew Member.key [] ms := by
  rw [firstPositions, map_addAllNew Member.key Prod.fst, List.zipIdx_map_fst, List.map_nil]

theorem positions_ascend (ms : List (Member α)) :
    ((firstPositions ms).map Prod.snd).Pairwise (· < ·) := by
  apply List.Pairwise.sublist ((firstPositions_sublist ms).map Prod.snd)
  rw [List.zipIdx_map_snd]
  exact List.pairwise_lt_range'

theorem mergeSort_heads (ms : List (Member α)) :
    ((runHeads (·.1.key) none (sortedPositions ms)).map Prod.snd).mergeSort (· ≤ ·) =
      (firstPositions ms).map Prod.snd := by
  have perm := (List.mergeSort_perm _ (· ≤ ·)).trans ((heads_perm ms).map Prod.snd)
  have ordered : (((runHeads (·.1.key) none (sortedPositions ms)).map Prod.snd).mergeSort
      (· ≤ ·)).Pairwise (· ≤ ·) := by
    refine List.Pairwise.imp of_decide_eq_true (List.pairwise_mergeSort ?_ ?_ _)
    · intro a b c
      simpa using Nat.le_trans
    · intro a b
      simpa using Nat.le_total a b
  exact List.Perm.eq_of_pairwise (fun a b _ _ => Nat.le_antisymm) ordered
    ((positions_ascend ms).imp Nat.le_of_lt) perm

theorem dropGaps_heads (ms : List (Member α)) :
    dropGaps (((runHeads (·.1.key) none (sortedPositions ms)).map Prod.snd).mergeSort (· ≤ ·)) ms =
      addAllNew Member.key [] ms := by
  have standing : ∀ p ∈ firstPositions ms, ms[p.2]? = some p.1 := fun p hp =>
    List.mem_zipIdx_iff_getElem?.mp ((firstPositions_sublist ms).mem hp)
  rw [mergeSort_heads, dropGaps_eq _ _ (positions_ascend ms), List.filterMap_map,
    ← map_fst_firstPositions, ← List.filterMap_eq_map]
  · exact List.filterMap_congr standing
  · intro pos hpos
    obtain ⟨p, hp, rfl⟩ := List.mem_map.mp hpos
    exact (List.getElem?_eq_some_iff.mp (standing p hp)).1

theorem firstPositions_of_length {ms : List (Member α)}
    (all : ((runHeads (·.1.key) none (sortedPositions ms)).map Prod.snd).length = ms.length) :
    firstPositions ms = ms.zipIdx := by
  apply (firstPositions_sublist ms).eq_of_length
  rw [← (heads_perm ms).length_eq, List.length_zipIdx, ← all, List.length_map]

theorem dedup_members (o : InsertionObject α) (ms : List (Member α)) :
    (o.dedup ms).members = addAllNew Member.key [] ms := by
  unfold dedup
  dsimp only
  split
  · rename_i all
    rw [← map_fst_firstPositions, firstPositions_of_length all, List.zipIdx_map_fst]
  · exact dropGaps_heads ms

theorem distinct_addAllNew (ms : List (Member α)) : Distinct (addAllNew Member.key [] ms) :=
  nodup_addAllNew Member.key [] ms List.nodup_nil

theorem indexed_dedup (o : InsertionObject α) (ms : List (Member α)) : Indexed (o.dedup ms) := by
  unfold dedup
  dsimp only
  split
  · rename_i all
    have perm := firstPositions_of_length all ▸ heads_perm ms
    constructor
    · have positions := perm.map Prod.snd
      rwa [List.zipIdx_map_snd, ← List.range_eq_range'] at positions
    · refine ascending_positions ?_ fun p hp => perm.mem_iff.mp hp
      exact (runHeads_ascending _ none (sortedBy_mergeSort _ _) (by simp)).1
  · exact indexed_rebuild _ (dropGaps_heads ms ▸ distinct_addAllNew ms)

end Changes

end DocTree.InsertionObject
