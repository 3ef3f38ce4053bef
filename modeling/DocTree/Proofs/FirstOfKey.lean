import Mathlib.Data.List.Perm.Basic
import DocTree.InsertionObject.Basic
import DocTree.Proofs.Members

/-!
The first entry of every key: what is kept when entries come one by one and those with a known key
are passed over. Sorting and keeping the heads of the runs selects the same entries.
-/

namespace DocTree

variable {α β : Type}

def addNew (key : α → String) (kept : List α) (x : α) : List α :=
  if key x ∈ kept.map key then kept else kept ++ [x]

def addAllNew (key : α → String) (kept xs : List α) : List α := xs.foldl (addNew key) kept

section Adding

variable (key : α → String)

theorem addAllNew_nil (kept : List α) : addAllNew key kept [] = kept := rfl

theorem addAllNew_cons (kept : List α) (x : α) (xs : List α) :
    addAllNew key kept (x :: xs) = addAllNew key (addNew key kept x) xs := rfl

theorem addAllNew_append (kept xs ys : List α) :
    addAllNew key kept (xs ++ ys) = addAllNew key (addAllNew key kept xs) ys :=
  List.foldl_append

theorem find?_addNew (kept : List α) (x : α) (k : String) :
    (addNew key kept x).find? (key · = k) = (kept ++ [x]).find? (key · = k) := by
  unfold addNew
  split
  · rename_i known
    rw [List.find?_append]
    cases found : kept.find? (key · = k) with
    | some y => rfl
    | none =>
      have apart : key x ≠ k := by
        rintro rfl
        obtain ⟨y, member, same⟩ := List.mem_map.mp known
        simpa [same] using List.find?_eq_none.mp found y member
      simp [apart]
  · rfl

theorem find?_addAllNew (kept xs : List α) (k : String) :
    (addAllNew key kept xs).find? (key · = k) = (kept ++ xs).find? (key · = k) := by
  induction xs generalizing kept with
  | nil => rw [addAllNew_nil, List.append_nil]
  | cons x xs ih =>
    rw [addAllNew_cons, ih, List.find?_append, find?_addNew, ← List.find?_append,
      List.append_assoc, List.singleton_append]

theorem nodup_addAllNew (kept xs : List α) (distinct : (kept.map key).Nodup) :
    ((addAllNew key kept xs).map key).Nodup := by
  induction xs generalizing kept with
  | nil => exact distinct
  | cons x xs ih =>
    apply ih
    unfold addNew
    split
    · exact distinct
    · rename_i unknown
      rw [List.map_append]
      exact distinct.append (List.nodup_singleton _) (by simpa using unknown)

theorem addAllNew_sublist (kept xs : List α) : (addAllNew key kept xs).Sublist (kept ++ xs) := by
  induction xs generalizing kept with
  | nil => rw [addAllNew_nil, List.append_nil]
  | cons x xs ih =>
    apply (ih _).trans
    unfold addNew
    split
    · exact (List.Sublist.refl kept).append (List.sublist_cons_self x xs)
    · rw [List.append_assoc, List.singleton_append]

theorem addAllNew_distinct (kept xs : List α) (distinct : ((kept ++ xs).map key).Nodup) :
    addAllNew key kept xs = kept ++ xs := by
  induction xs generalizing kept with
  | nil => rw [addAllNew_nil, List.append_nil]
  | cons x xs ih =>
    have apart : key x ∉ kept.map key := by
      rw [List.map_append, List.map_cons] at distinct
      exact fun known => List.disjoint_of_nodup_append distinct known List.mem_cons_self
    rw [addAllNew_cons, addNew, if_neg apart, ih _ (by simpa using distinct),
      List.append_assoc, List.singleton_append]

theorem mem_map_addAllNew (kept xs : List α) (k : String) :
    k ∈ (addAllNew key kept xs).map key ↔ k ∈ kept.map key ∨ k ∈ xs.map key := by
  have found (ys : List α) : k ∈ ys.map key ↔ (ys.find? (key · = k)).isSome := by simp
  rw [found, find?_addAllNew, ← found, List.map_append, List.mem_append]

theorem addAllNew_of_known (kept xs : List α) (known : ∀ x ∈ xs, key x ∈ kept.map key) :
    addAllNew key kept xs = kept := by
  induction xs with
  | nil => rfl
  | cons x xs ih =>
    have first : addNew key kept x = kept := if_pos (known x List.mem_cons_self)
    rw [addAllNew_cons, first]
    exact ih fun y isIn => known y (List.mem_cons_of_mem x isIn)

theorem addAllNew_addAllNew (kept xs ys : List α) :
    addAllNew key kept (addAllNew key xs ys) = addAllNew key (addAllNew key kept xs) ys := by
  rw [← addAllNew_append]
  induction ys generalizing xs with
  | nil => rw [addAllNew_nil, List.append_nil]
  | cons y ys ih =>
    rw [addAllNew_cons, ih]
    unfold addNew
    split
    · rename_i known
      have here : key y ∈ (addAllNew key kept xs).map key :=
        (mem_map_addAllNew key kept xs _).mpr (.inr known)
      rw [addAllNew_append, addAllNew_append, addAllNew_cons, addNew, if_pos here]
    · rw [List.append_assoc, List.singleton_append]

theorem map_addAllNew (f : β → α) (kept xs : List β) :
    (addAllNew (fun x => key (f x)) kept xs).map f = addAllNew key (kept.map f) (xs.map f) := by
  induction xs generalizing kept with
  | nil => rfl
  | cons x xs ih =>
    rw [addAllNew_cons, ih, List.map_cons, addAllNew_cons]
    congr 1
    unfold addNew
    rw [List.map_map, show (key ∘ f) = fun x => key (f x) from rfl]
    split <;> simp

end Adding

theorem addAllNew_eq_eraseDups (kept keys : List String) :
    addAllNew id kept keys = kept ++ (keys.filter (· ∉ kept)).eraseDups := by
  induction keys generalizing kept with
  | nil => exact (List.append_nil kept).symm
  | cons k keys ih =>
    rw [addAllNew_cons, ih]
    simp only [addNew, List.map_id, id_eq]
    by_cases known : k ∈ kept
    · rw [if_pos known, List.filter_cons_of_neg (by simpa using known)]
    · have later : keys.filter (· ∉ kept ++ [k]) = (keys.filter (· ∉ kept)).filter (!· == k) := by
        rw [List.filter_filter]
        apply List.filter_congr
        intro x _
        by_cases same : x = k <;> simp [same]
      rw [if_neg known, List.filter_cons_of_pos (by simpa using known), List.eraseDups_cons, later,
        List.append_assoc, List.singleton_append]

theorem mem_iff_find? {key : α → String} {xs : List α} (distinct : (xs.map key).Nodup) (x : α) :
    x ∈ xs ↔ xs.find? (key · = key x) = some x := by
  induction xs with
  | nil => simp
  | cons y xs ih =>
    obtain ⟨fresh, distinct⟩ := List.nodup_cons.mp distinct
    rw [List.mem_cons, List.find?_cons]
    by_cases same : key y = key x
    · have absent : x ∉ xs := fun member => fresh (same ▸ List.mem_map_of_mem member)
      simp [same, absent, eq_comm]
    · have apart : x ≠ y := fun h => same (h ▸ rfl)
      simp [same, apart, ih distinct]

/-- The heads of the runs of a stable sort are the first entries of the keys. -/
theorem runHeads_perm_firsts (key : α → String) (xs : List α) :
    (runHeads key none (xs.mergeSort fun a b => key a ≤ key b)).Perm (addAllNew key [] xs) := by
  have sorted := sortedBy_mergeSort key xs
  have heads := (runHeads_ascending _ none sorted (by simp)).1.nodup
  have firsts := nodup_addAllNew key [] xs List.nodup_nil
  apply (List.perm_ext_iff_of_nodup (heads.of_map key) (firsts.of_map key)).mpr
  intro x
  rw [mem_iff_find? heads, mem_iff_find? firsts, find?_runHeads _ none sorted (by simp),
    find?_mergeSort, find?_addAllNew]
  rfl

theorem lookup_addAllNew (ms incoming : List (Member α)) (key : String) :
    lookup (addAllNew Member.key ms incoming) key =
      (lookup ms key).or (lookup incoming key) := by
  rw [lookup, find?_addAllNew, ← lookup, lookup_append]

namespace Object

theorem ofMembers_ascending (home : Home) (ms : List (Member α)) :
    AscendingBy Member.key (ofMembers home ms).members :=
  (runHeads_ascending _ none (sortedBy_mergeSort Member.key ms) (by simp)).1

theorem lookup_ofMembers (home : Home) (ms : List (Member α)) (key : String) :
    lookup (ofMembers home ms).members key = lookup ms key := by
  unfold ofMembers sortByKey
  rw [lookup, find?_runHeads _ none (sortedBy_mergeSort Member.key ms) (by simp),
    find?_mergeSort, if_neg (by simp), lookup]

end Object

namespace InsertionObject

/-- The sweep stops at the lowest kept position. Before it nothing has changed, and behind it only
the kept members are left. -/
theorem dropGaps_sweep (keep : List Nat) (ms : List (Member α)) (ascending : keep.Pairwise (· < ·))
    (inside : ∀ pos ∈ keep, pos < ms.length) :
    keep.foldr (fun pos rest => (rest.1.take (pos + 1) ++ rest.1.drop rest.2, pos))
        (ms, ms.length) =
      (ms.take (keep.head?.getD ms.length) ++ keep.filterMap (ms[·]?),
        keep.head?.getD ms.length) := by
  induction keep with
  | nil => simp
  | cons pos keep ih =>
    obtain ⟨below, ascending⟩ := List.pairwise_cons.mp ascending
    have here : pos < ms.length := inside pos List.mem_cons_self
    -- Positions behind `pos` are swept already; what stands up to `pos` is still in place.
    rw [List.foldr_cons, ih ascending fun i hi => inside i (List.mem_cons_of_mem pos hi)]
    have gap : pos < keep.head?.getD ms.length := by
      cases keep with
      | nil => exact here
      | cons next keep => exact below next List.mem_cons_self
    have bound : keep.head?.getD ms.length ≤ ms.length := by
      cases keep with
      | nil => exact Nat.le_refl _
      | cons next keep =>
        exact Nat.le_of_lt (inside next (List.mem_cons_of_mem pos List.mem_cons_self))
    have size : (ms.take (keep.head?.getD ms.length)).length = keep.head?.getD ms.length := by
      rw [List.length_take, Nat.min_eq_left bound]
    have upTo : (ms.take (keep.head?.getD ms.length) ++ keep.filterMap (ms[·]?)).take (pos + 1) =
        ms.take pos ++ [ms[pos]] := by
      rw [List.take_append_of_le_length (by omega), List.take_take, Nat.min_eq_left (by omega),
        List.take_succ_eq_append_getElem here]
    have onward : (ms.take (keep.head?.getD ms.length) ++ keep.filterMap (ms[·]?)).drop
        (keep.head?.getD ms.length) = keep.filterMap (ms[·]?) :=
      List.drop_left' size
    refine Prod.ext ?_ rfl
    change List.take (pos + 1) _ ++ List.drop _ _ = ms.take pos ++ _
    rw [upTo, onward, List.filterMap_cons_some (List.getElem?_eq_getElem here),
      List.append_assoc, List.singleton_append]

theorem dropGaps_eq (keep : List Nat) (ms : List (Member α)) (ascending : keep.Pairwise (· < ·))
    (inside : ∀ pos ∈ keep, pos < ms.length) :
    dropGaps keep ms = keep.filterMap (ms[·]?) := by
  have whole : dropGaps keep ms =
      (ms.take (keep.head?.getD ms.length) ++ keep.filterMap (ms[·]?)).drop
        (keep.head?.getD ms.length) :=
    congrArg (fun rest : List (Member α) × Nat => rest.1.drop rest.2)
      (dropGaps_sweep keep ms ascending inside)
  rw [whole]
  cases keep with
  | nil => simp
  | cons pos keep =>
    have here : pos < ms.length := inside pos List.mem_cons_self
    exact List.drop_left' (by simp [Nat.le_of_lt here])

end InsertionObject

end DocTree
