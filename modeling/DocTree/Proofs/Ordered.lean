import DocTree.Object.Basic
import DocTree.Proofs.FirstOfKey

namespace DocTree.Object

variable {α : Type}

def Ordered (o : Object α) : Prop := AscendingBy Member.key o.members

namespace Ordered

variable {o : Object α}

theorem lowerBound_zero (o : Object α) (key : String) :
    o.lowerBound 0 key = partitionPoint (·.key < key) o.members :=
  Nat.zero_add _

theorem lowerBound_le_length (ordered : Ordered o) (key : String) :
    o.lowerBound 0 key ≤ o.members.length := by
  obtain ⟨front, back, whole, stop, -, -⟩ := AscendingBy.split ordered key
  rw [lowerBound_zero, stop, whole, List.length_append]
  omega

theorem hint_le {front back : List (Member α)}
    (ascending : AscendingBy Member.key (front ++ back)) {key : String}
    (notBelow : ∀ m ∈ back, key ≤ m.key) {hint : Nat} {m : Member α}
    (here : (front ++ back)[hint]? = some m) (notAbove : m.key ≤ key) :
    hint ≤ front.length := by
  by_contra beyond
  obtain ⟨k, later⟩ : ∃ k, hint - front.length = k + 1 := ⟨hint - front.length - 1, by omega⟩
  rw [List.getElem?_append_right (by omega), later] at here
  cases back with
  | nil => cases here
  | cons first back =>
    have above : first.key < m.key :=
      List.rel_of_pairwise_cons (List.pairwise_append.mp ascending).2.1
        (List.mem_of_getElem? here)
    have atLeast : key ≤ first.key := notBelow first List.mem_cons_self
    exact absurd (atLeast.trans_lt above) (not_lt_of_ge notAbove)

/-- A search from a hint ends where the search from the front does. -/
theorem lowerBound_searchStart (ordered : Ordered o) (hint : Nat) (key : String) :
    o.lowerBound (o.searchStart hint key) key = o.lowerBound 0 key := by
  unfold searchStart keyAt?
  cases here : o.members[hint]? with
  | none => rfl
  | some m =>
    dsimp only [Option.map_some]
    split
    · rename_i notAbove
      obtain ⟨front, back, whole, stop, below, notBelow⟩ := AscendingBy.split ordered key
      have ascending : AscendingBy Member.key (front ++ back) := whole ▸ ordered
      have inside : hint ≤ front.length := hint_le ascending notBelow (whole ▸ here) notAbove
      have rest : partitionPoint (·.key < key) (front.drop hint ++ back) =
          (front.drop hint).length :=
        partitionPoint_append _ _ _
          (fun n hn => decide_eq_true (below n (List.mem_of_mem_drop hn)))
          (fun n hn => by rw [decide_eq_true_eq, not_lt]; exact notBelow n hn)
      rw [lowerBound_zero, stop]
      unfold lowerBound
      rw [whole, List.drop_append_of_le_length inside, rest, List.length_drop]
      omega
    · rfl

theorem keyAt?_lowerBound (ordered : Ordered o) (key : String) :
    o.keyAt? (o.lowerBound 0 key) = some key ↔ key ∈ o.members.map Member.key := by
  rw [lowerBound_zero, keyAt?, Option.map_eq_some_iff, List.mem_map]
  exact exists_congr fun m => ordered.found_iff key m

theorem insertAt (ordered : Ordered o) (m : Member α) (fresh : m.key ∉ o.members.map Member.key) :
    Ordered (o.insertAt (o.lowerBound 0 m.key) m) := by
  rw [lowerBound_zero]
  exact AscendingBy.insert ordered fun n hn same => fresh (List.mem_map.mpr ⟨n, hn, same⟩)

theorem lookup_insertAt (ordered : Ordered o) (m : Member α)
    (fresh : m.key ∉ o.members.map Member.key) (key : String) :
    lookup (o.insertAt (o.lowerBound 0 m.key) m).members key =
      if m.key = key then some m.value else lookup o.members key :=
  lookup_withMember ordered.distinct fresh
    (List.perm_insertIdx m o.members (ordered.lowerBound_le_length m.key)) key

theorem assignAt (ordered : Ordered o) (pos : Nat) (v : α) : Ordered (o.assignAt pos v) :=
  AscendingBy.congr ordered (map_key_modify o.members pos v)

theorem insertRange (ordered : Ordered o) (incoming : List (Member α)) :
    Ordered (o.insertRange incoming) ∧ ∀ key,
      lookup (o.insertRange incoming).members key =
        (lookup o.members key).or (lookup incoming key) := by
  unfold Object.insertRange
  split
  · rename_i nothing
    rw [List.isEmpty_iff.mp nothing]
    exact ⟨ordered, fun key => Option.or_none.symm⟩
  · refine ⟨ofMembers_ascending o.home (o.members ++ incoming), fun key => ?_⟩
    rw [← lookup_append]
    exact lookup_ofMembers o.home (o.members ++ incoming) key

theorem below_merge {xs ys : List (Member α)} {key : String} (first : ∀ x ∈ xs, key < x.key)
    (second : ∀ y ∈ ys, key < y.key) :
    ∀ z ∈ xs.merge ys fun a b => a.key < b.key, key < z.key := by
  intro z hz
  rcases List.mem_merge.mp hz with inX | inY
  · exact first z inX
  · exact second z inY

theorem merge_ascending {xs ys : List (Member α)} (first : AscendingBy Member.key xs)
    (second : AscendingBy Member.key ys) (apart : ∀ x ∈ xs, ∀ y ∈ ys, x.key ≠ y.key) :
    AscendingBy Member.key (xs.merge ys fun a b => a.key < b.key) := by
  -- Either list may lose its head, so both are gone through.
  induction xs generalizing ys with
  | nil => rwa [List.nil_merge]
  | cons x xs ih =>
    induction ys with
    | nil => rwa [List.merge_right]
    | cons y ys ih' =>
      obtain ⟨fromX, laterX⟩ := List.pairwise_cons.mp first
      obtain ⟨fromY, laterY⟩ := List.pairwise_cons.mp second
      rw [List.cons_merge_cons]
      split
      · rename_i less
        have below : x.key < y.key := of_decide_eq_true less
        have aboveX : ∀ b ∈ y :: ys, x.key < b.key :=
          List.forall_mem_cons.mpr ⟨below, fun b hb => below.trans (fromY b hb)⟩
        have rest := ih laterX second fun a ha => apart a (List.mem_cons_of_mem x ha)
        exact List.pairwise_cons.mpr ⟨below_merge fromX aboveX, rest⟩
      · rename_i notLess
        have below : y.key < x.key := by
          rw [decide_eq_true_eq, not_lt] at notLess
          exact lt_of_le_of_ne notLess
            (apart x List.mem_cons_self y List.mem_cons_self).symm
        have aboveY : ∀ a ∈ x :: xs, y.key < a.key :=
          List.forall_mem_cons.mpr ⟨below, fun a ha => below.trans (fromX a ha)⟩
        have rest := ih' laterY fun a ha b hb => apart a ha b (List.mem_cons_of_mem y hb)
        exact List.pairwise_cons.mpr ⟨below_merge aboveY fromY, rest⟩

theorem head_le {first : Member α} {ms : List (Member α)}
    (ascending : AscendingBy Member.key (first :: ms)) :
    ∀ m ∈ first :: ms, first.key ≤ m.key :=
  List.forall_mem_cons.mpr
    ⟨le_refl _, fun _ later => le_of_lt (List.rel_of_pairwise_cons ascending later)⟩

theorem le_last {ms : List (Member α)} (ascending : AscendingBy Member.key ms) {last : Member α}
    (atEnd : ms.getLast? = some last) : ∀ m ∈ ms, m.key ≤ last.key := by
  obtain ⟨front, rfl⟩ := List.getLast?_eq_some_iff.mp atEnd
  intro m hm
  rcases List.mem_append.mp hm with inFront | isLast
  · have across := (List.pairwise_append.mp ascending).2.2
    exact le_of_lt (across m inFront last List.mem_cons_self)
  · rw [List.mem_singleton.mp isLast]

theorem insertSortedUnique_cases (ordered : Ordered o) {incoming : List (Member α)}
    (ascending : AscendingBy Member.key incoming) :
    ((o.insertSortedUnique incoming).members = o.members ++ incoming ∧
      ∀ x ∈ o.members, ∀ y ∈ incoming, x.key < y.key) ∨
    (o.insertSortedUnique incoming).members =
      o.members.merge incoming fun a b => a.key < b.key := by
  unfold Object.insertSortedUnique
  cases atEnd : o.members.getLast? with
  | none =>
    refine .inl ⟨rfl, fun x hx => ?_⟩
    rw [List.getLast?_eq_none_iff.mp atEnd] at hx
    cases hx
  | some last =>
    cases incoming with
    | nil => exact .inl ⟨rfl, fun x hx y hy => by cases hy⟩
    | cons first incoming =>
      dsimp only [List.head?_cons]
      by_cases higher : last.key < first.key
      · rw [if_pos (decide_eq_true higher)]
        refine .inl ⟨rfl, fun x hx y hy => ?_⟩
        have notAbove : x.key ≤ last.key := le_last ordered atEnd x hx
        have atLeast : first.key ≤ y.key := head_le ascending y hy
        exact (notAbove.trans_lt higher).trans_le atLeast
      · rw [if_neg (by rwa [decide_eq_true_eq])]
        exact .inr rfl

theorem insertSortedUnique (ordered : Ordered o) {incoming : List (Member α)}
    (ascending : AscendingBy Member.key incoming)
    (fresh : ∀ m ∈ incoming, m.key ∉ o.members.map Member.key) :
    Ordered (o.insertSortedUnique incoming) ∧
      (o.insertSortedUnique incoming).members.Perm (o.members ++ incoming) := by
  have apart : ∀ x ∈ o.members, ∀ y ∈ incoming, x.key ≠ y.key := fun x hx y hy same =>
    fresh y hy (List.mem_map.mpr ⟨x, hx, same⟩)
  unfold Ordered
  rcases ordered.insertSortedUnique_cases ascending with ⟨appended, across⟩ | merged
  · rw [appended]
    exact ⟨List.pairwise_append.mpr ⟨ordered, ascending, across⟩, .refl _⟩
  · rw [merged]
    exact ⟨merge_ascending ordered ascending apart, List.merge_perm_append _⟩

end Ordered

end DocTree.Object
