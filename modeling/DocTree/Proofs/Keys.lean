import Mathlib.Data.List.Sort
import Mathlib.Data.List.TakeWhile
import Mathlib.Data.String.Basic
import DocTree.Object.Basic

namespace DocTree

variable {α : Type}

theorem partitionPoint_append (p : α → Bool) (front back : List α)
    (pass : ∀ x ∈ front, p x) (fail : ∀ x ∈ back, ¬ p x) :
    partitionPoint p (front ++ back) = front.length := by
  -- The half that is left is again what passes followed by what fails.
  induction size : front.length + back.length using Nat.strongRecOn generalizing front back with
  | ind n ih =>
    subst size
    rw [partitionPoint, List.length_append]
    split
    · rename_i middle
      have := congrArg List.length middle
      simp only [List.length_drop, List.length_append, List.length_nil] at this
      omega
    · rename_i x rest middle
      have half : (front.length + back.length) / 2 < (front ++ back).length := by
        have := congrArg List.length middle
        simp only [List.length_drop, List.length_cons] at this
        omega
      rw [← List.getElem_cons_drop half] at middle
      injection middle with first others
      rw [List.length_append] at half
      by_cases inFront : (front.length + back.length) / 2 < front.length
      · have passes : p x := by
          rw [← first, List.getElem_append_left inFront]
          exact pass _ (List.getElem_mem _)
        rw [if_pos passes, ← others, List.drop_append_of_le_length inFront,
          ih _ (by rw [List.length_drop]; omega) _ _
            (fun y hy => pass y (List.mem_of_mem_drop hy)) fail rfl, List.length_drop]
        omega
      · have fails : ¬ p x := by
          rw [← first, List.getElem_append_right (by omega)]
          exact fail _ (List.getElem_mem _)
        rw [if_neg fails, List.take_append, List.take_of_length_le (by omega)]
        exact ih _ (by rw [List.length_take]; omega) _ _
          pass (fun y hy => fail y (List.mem_of_mem_take hy)) rfl

def AscendingBy (key : α → String) (xs : List α) : Prop := xs.Pairwise (key · < key ·)

def SortedBy (key : α → String) (xs : List α) : Prop := xs.Pairwise (key · ≤ key ·)

section Search

variable {key : α → String} {xs ys : List α}

theorem AscendingBy.sublist (ascending : AscendingBy key xs) (part : ys.Sublist xs) :
    AscendingBy key ys :=
  List.Pairwise.sublist part ascending

theorem AscendingBy.nodup (ascending : AscendingBy key xs) : (xs.map key).Nodup := by
  refine List.pairwise_map.mpr (List.Pairwise.imp ?_ ascending)
  exact fun below => ne_of_lt below

theorem AscendingBy.congr (ascending : AscendingBy key xs) (same : ys.map key = xs.map key) :
    AscendingBy key ys := by
  have keys : (xs.map key).Pairwise (· < ·) := List.pairwise_map.mpr ascending
  exact List.pairwise_map.mp (same ▸ keys)

/-- Around a key the list falls into what is below and what is not, and the search finds the
place between. -/
theorem AscendingBy.split (ascending : AscendingBy key xs) (k : String) :
    ∃ front back, xs = front ++ back ∧ partitionPoint (key · < k) xs = front.length ∧
      (∀ x ∈ front, key x < k) ∧ ∀ x ∈ back, k ≤ key x := by
  have below : ∀ x ∈ xs.takeWhile (key · < k), key x < k :=
    fun x hx => of_decide_eq_true (List.mem_takeWhile_imp (p := (key · < k)) hx)
  have notBelow : ∀ x ∈ xs.dropWhile (key · < k), k ≤ key x := by
    intro x hx
    have nonempty : xs.dropWhile (key · < k) ≠ [] := List.ne_nil_of_mem hx
    have first := List.head_dropWhile_not (fun x => decide (key x < k)) nonempty
    rw [decide_eq_false_iff_not, not_lt] at first
    have tail := ascending.sublist (List.dropWhile_sublist (key · < k))
    rw [← List.cons_head_tail nonempty] at hx tail
    rcases List.mem_cons.mp hx with rfl | later
    · exact first
    · exact first.trans (le_of_lt (List.rel_of_pairwise_cons tail later))
  refine ⟨_, _, List.takeWhile_append_dropWhile.symm, ?_, below, notBelow⟩
  conv_lhs => rw [← List.takeWhile_append_dropWhile (p := (key · < k)) (l := xs)]
  exact partitionPoint_append _ _ _ (fun x hx => decide_eq_true (below x hx))
    (fun x hx => by rw [decide_eq_true_eq, not_lt]; exact notBelow x hx)

theorem AscendingBy.found_iff (ascending : AscendingBy key xs) (k : String) (x : α) :
    xs[partitionPoint (key · < k) xs]? = some x ∧ key x = k ↔ x ∈ xs ∧ key x = k := by
  refine and_congr_left fun same => ⟨List.mem_of_getElem?, fun member => ?_⟩
  obtain ⟨front, back, rfl, stop, below, notBelow⟩ := ascending.split k
  rw [stop, List.getElem?_append_right (Nat.le_refl _), Nat.sub_self]
  rcases List.mem_append.mp member with inFront | inBack
  · exact absurd same (ne_of_lt (below x inFront))
  · cases back with
    | nil => cases inBack
    | cons y back =>
      rcases List.mem_cons.mp inBack with rfl | later
      · rfl
      · have above := List.rel_of_pairwise_cons (List.pairwise_append.mp ascending).2.1 later
        have atLeast := notBelow y List.mem_cons_self
        exact absurd same (ne_of_gt (lt_of_le_of_lt atLeast above))

theorem insertIdx_between (front back : List α) (x : α) :
    (front ++ back).insertIdx front.length x = front ++ x :: back := by
  induction front with
  | nil => rfl
  | cons y front ih => simp [ih]

theorem AscendingBy.between {front back : List α} (ascending : AscendingBy key (front ++ back))
    {x : α} (below : ∀ y ∈ front, key y < key x) (above : ∀ y ∈ back, key x < key y) :
    AscendingBy key (front ++ x :: back) := by
  obtain ⟨first, second, across⟩ := List.pairwise_append.mp ascending
  refine List.pairwise_append.mpr ⟨first, List.pairwise_cons.mpr ⟨above, second⟩, ?_⟩
  intro y hy z hz
  rcases List.mem_cons.mp hz with rfl | later
  · exact below y hy
  · exact across y hy z later

theorem AscendingBy.insert (ascending : AscendingBy key xs) {x : α}
    (fresh : ∀ y ∈ xs, key y ≠ key x) :
    AscendingBy key (xs.insertIdx (partitionPoint (key · < key x) xs) x) := by
  obtain ⟨front, back, rfl, stop, below, notBelow⟩ := ascending.split (key x)
  rw [stop, insertIdx_between]
  exact ascending.between below fun y hy =>
    lt_of_le_of_ne (notBelow y hy) (fresh y (List.mem_append_right _ hy)).symm

theorem AscendingBy.ext (first : AscendingBy key xs) (second : AscendingBy key ys)
    (same : ∀ x, x ∈ xs ↔ x ∈ ys) : xs = ys := by
  have distinct : ∀ {zs : List α}, AscendingBy key zs → zs.Nodup :=
    fun ascending => List.Nodup.of_map key ascending.nodup
  have perm : xs.Perm ys := (List.perm_ext_iff_of_nodup (distinct first) (distinct second)).mpr same
  refine List.Perm.eq_of_pairwise ?_ first second perm
  exact fun a b _ _ below above => absurd below (lt_asymm above)

end Search

section Sorting

variable (key : α → String)

theorem sortedBy_mergeSort (xs : List α) :
    SortedBy key (xs.mergeSort fun a b => key a ≤ key b) := by
  refine List.Pairwise.imp of_decide_eq_true (List.pairwise_mergeSort ?_ ?_ xs)
  · exact fun a b c ab bc =>
      decide_eq_true ((of_decide_eq_true ab).trans (of_decide_eq_true bc))
  · intro a b
    rw [Bool.or_eq_true, decide_eq_true_eq, decide_eq_true_eq]
    exact le_total _ _

theorem filter_mergeSort (xs : List α) (k : String) :
    (xs.mergeSort fun a b => key a ≤ key b).filter (key · = k) = xs.filter (key · = k) := by
  symm
  have kept : (xs.filter (key · = k)).Sublist (xs.mergeSort fun a b => key a ≤ key b) := by
    refine List.sublist_mergeSort ?_ ?_ ?_ List.filter_sublist
    · exact fun a b c ab bc =>
        decide_eq_true ((of_decide_eq_true ab).trans (of_decide_eq_true bc))
    · intro a b
      rw [Bool.or_eq_true, decide_eq_true_eq, decide_eq_true_eq]
      exact le_total _ _
    -- Entries of one key are sorted as they stand, and a stable sort keeps what is sorted.
    · apply List.pairwise_of_forall_mem_list
      intro a ha b hb
      have ka := of_decide_eq_true (List.mem_filter.mp ha).2
      have kb := of_decide_eq_true (List.mem_filter.mp hb).2
      rw [decide_eq_true_eq, ka, kb]
  have filtered := kept.filter (key · = k)
  simp only [List.filter_filter, Bool.and_self] at filtered
  exact filtered.eq_of_length (((List.mergeSort_perm xs _).filter _).length_eq.symm)

theorem find?_mergeSort (xs : List α) (k : String) :
    (xs.mergeSort fun a b => key a ≤ key b).find? (key · = k) = xs.find? (key · = k) := by
  rw [← List.head?_filter, filter_mergeSort, List.head?_filter]

end Sorting

section Heads

variable {key : α → String}

theorem runHeads_ascending (xs : List α) (last : Option String) (sorted : SortedBy key xs)
    (above : ∀ l ∈ last, ∀ x ∈ xs, l ≤ key x) :
    AscendingBy key (runHeads key last xs) ∧ ∀ l ∈ last, ∀ x ∈ runHeads key last xs, l < key x := by
  induction xs generalizing last with
  | nil => exact ⟨List.Pairwise.nil, fun l _ x hx => by cases hx⟩
  | cons x xs ih =>
    obtain ⟨fromHere, sorted⟩ := List.pairwise_cons.mp sorted
    rw [runHeads]
    split
    · exact ih last sorted fun l hl y hy => above l hl y (List.mem_cons_of_mem x hy)
    · rename_i differs
      obtain ⟨ascending, later⟩ := ih (some (key x)) sorted fun l hl y hy => by
        cases hl
        exact fromHere y hy
      refine ⟨List.pairwise_cons.mpr ⟨later (key x) rfl, ascending⟩, ?_⟩
      intro l hl y hy
      have head : l < key x := lt_of_le_of_ne (above l hl x List.mem_cons_self) fun same =>
        differs (same ▸ hl)
      rcases List.mem_cons.mp hy with rfl | tail
      · exact head
      · exact head.trans (later (key x) rfl y tail)

theorem find?_runHeads (xs : List α) (last : Option String) (sorted : SortedBy key xs)
    (above : ∀ l ∈ last, ∀ x ∈ xs, l ≤ key x) (k : String) :
    (runHeads key last xs).find? (key · = k) =
      if last = some k then none else xs.find? (key · = k) := by
  induction xs generalizing last with
  | nil => simp [runHeads]
  | cons x xs ih =>
    obtain ⟨fromHere, sorted⟩ := List.pairwise_cons.mp sorted
    rw [runHeads]
    split
    · rename_i same
      subst same
      rw [ih _ sorted fun l hl y hy => above l hl y (List.mem_cons_of_mem x hy), List.find?_cons]
      by_cases here : key x = k <;> simp [here]
    · rename_i differs
      have rest := ih (some (key x)) sorted fun l hl y hy => by
        cases hl
        exact fromHere y hy
      rw [List.find?_cons, List.find?_cons, rest]
      by_cases here : key x = k
      · subst here
        simp [differs]
      · have absent : last = some k → xs.find? (key · = k) = none := by
          rintro rfl
          have below := lt_of_le_of_ne (above k rfl x List.mem_cons_self) (Ne.symm here)
          refine List.find?_eq_none.mpr fun y hy => ?_
          rw [decide_eq_true_eq]
          exact ne_of_gt (below.trans_le (fromHere y hy))
        by_cases passed : last = some k
        · simp [here, passed, absent passed]
        · simp [here, passed]

end Heads

end DocTree
