import DocTree.Proofs.Built
import DocTree.Sequence.Edit

namespace DocTree

variable {α : Type}

namespace Bound

def IsWord : Bound → Prop
  | included n | excluded n => n < positionLimit
  | unbounded => True

def first : Bound → Nat
  | included n => n
  | excluded n => n + 1
  | unbounded => 0

def behind (size : Nat) : Bound → Nat
  | included n => n + 1
  | excluded n => n
  | unbounded => size

def AdmitsFrom (i : Nat) : Bound → Bool
  | included n => n ≤ i
  | excluded n => n < i
  | unbounded => true

def AdmitsUpTo (i : Nat) : Bound → Bool
  | included n => i ≤ n
  | excluded n => i < n
  | unbounded => true

end Bound

def selected (low high : Bound) (i : Nat) : Bool := low.AdmitsFrom i && high.AdmitsUpTo i

inductive Misused (low high : Bound) (size : Nat) : Fault → Prop
  | startOverflow : low = .excluded (positionLimit - 1) →
      Misused low high size .rangeStartOverflow
  | endOverflow : high = .included (positionLimit - 1) → Misused low high size .rangeEndOverflow
  | reversed : high.behind size < low.first →
      Misused low high size (.rangeReversed low.first (high.behind size))
  | pastEnd : size < high.behind size →
      Misused low high size (.rangePastEnd (high.behind size) size)

/-- The entries at positions that do not satisfy both bounds. -/
def unselected (low high : Bound) (xs : List α) : List α :=
  (xs.zipIdx.filter fun p => !selected low high p.2).map Prod.fst

def unselectedBefore (low high : Bound) (i : Nat) : Nat :=
  (List.range i).countP fun j => !selected low high j

section Bounds

variable {low high : Bound}

theorem after_eq {n : Nat} (word : n < positionLimit) (overflow : Fault) :
    after n overflow = if n = positionLimit - 1 then .error overflow else .ok (n + 1) := by
  unfold after
  unfold positionLimit at *
  split <;> split <;> first | rfl | omega

theorem Bound.start_cases (low : Bound) (word : low.IsWord) :
    low = .excluded (positionLimit - 1) ∧ low.start = .error .rangeStartOverflow ∨
      low ≠ .excluded (positionLimit - 1) ∧ low.start = .ok low.first := by
  cases low with
  | included n => exact .inr ⟨by simp, rfl⟩
  | excluded n =>
    simp only [start, first, after_eq word, excluded.injEq, ne_eq]
    split
    · rename_i last
      exact .inl ⟨last, rfl⟩
    · rename_i notLast
      exact .inr ⟨notLast, rfl⟩
  | unbounded => exact .inr ⟨by simp, rfl⟩

theorem Bound.stop_cases (high : Bound) (word : high.IsWord) (size : Nat) :
    high = .included (positionLimit - 1) ∧ high.stop size = .error .rangeEndOverflow ∨
      high ≠ .included (positionLimit - 1) ∧ high.stop size = .ok (high.behind size) := by
  cases high with
  | included n =>
    simp only [stop, behind, after_eq word, included.injEq, ne_eq]
    split
    · rename_i last
      exact .inl ⟨last, rfl⟩
    · rename_i notLast
      exact .inr ⟨notLast, rfl⟩
  | excluded n => exact .inr ⟨by simp, rfl⟩
  | unbounded => exact .inr ⟨by simp, rfl⟩

/-- Bounds that fit the container select the positions between their ends, and others are
refused for a cause that applies. -/
theorem span_cases (lowWord : low.IsWord) (highWord : high.IsWord) (size : Nat) :
    (∃ f, Misused low high size f ∧ span low high size = .error f) ∨
      (∀ f, ¬Misused low high size f) ∧ span low high size = .ok (low.first, high.behind size) := by
  unfold span
  obtain ⟨last, start⟩ | ⟨notLast, start⟩ := low.start_cases lowWord
  · exact .inl ⟨_, .startOverflow last, by rw [start]; rfl⟩
  obtain ⟨end_, stop⟩ | ⟨notEnd, stop⟩ := high.stop_cases highWord size
  · exact .inl ⟨_, .endOverflow end_, by rw [start, stop]; rfl⟩
  rw [start, stop]
  simp only [bind, Except.bind, pure, Except.pure]
  by_cases reversed : high.behind size < low.first
  · exact .inl ⟨_, .reversed reversed, by rw [if_pos reversed]; rfl⟩
  by_cases past : size < high.behind size
  · exact .inl ⟨_, .pastEnd past, by rw [if_neg reversed, if_pos past]; rfl⟩
  refine .inr ⟨fun f misused => ?_, by rw [if_neg reversed, if_neg past]⟩
  cases misused with
  | startOverflow last => exact notLast last
  | endOverflow last => exact notEnd last
  | reversed back => exact reversed back
  | pastEnd beyond => exact past beyond

theorem selected_iff {size i : Nat} (inside : i < size) :
    selected low high i = true ↔ low.first ≤ i ∧ i < high.behind size := by
  have fromLow : low.AdmitsFrom i = true ↔ low.first ≤ i := by
    cases low with
    | included n => exact decide_eq_true_iff
    | excluded n => exact decide_eq_true_iff
    | unbounded => exact iff_of_true rfl (Nat.zero_le i)
  have upToHigh : high.AdmitsUpTo i = true ↔ i < high.behind size := by
    cases high with
    | included n => exact decide_eq_true_iff.trans Nat.lt_succ_iff.symm
    | excluded n => exact decide_eq_true_iff
    | unbounded => exact iff_of_true rfl inside
  rw [selected, Bool.and_eq_true, fromLow, upToHigh]

end Bounds

section Entries

theorem eraseSpan_eq_filter {xs : List α} {start stop : Nat} {keep : α → Bool}
    (ordered : start ≤ stop)
    (outside : ∀ i (inside : i < xs.length), keep xs[i] = true ↔ i < start ∨ stop ≤ i) :
    eraseSpan xs start stop = xs.filter keep := by
  have front : (xs.take start).filter keep = xs.take start := by
    refine List.filter_eq_self.mpr fun x isIn => ?_
    obtain ⟨i, inside, rfl⟩ := List.mem_take_iff_getElem.mp isIn
    exact (outside i (by omega)).mpr (.inl (by omega))
  have middle : ((xs.drop start).take (stop - start)).filter keep = [] := by
    refine List.filter_eq_nil_iff.mpr fun x isIn => ?_
    obtain ⟨i, inside, rfl⟩ := List.mem_take_iff_getElem.mp isIn
    rw [List.length_drop] at inside
    rw [List.getElem_drop, outside (start + i) (by omega)]
    omega
  have back : (xs.drop stop).filter keep = xs.drop stop := by
    refine List.filter_eq_self.mpr fun x isIn => ?_
    obtain ⟨i, inside, rfl⟩ := List.mem_drop_iff_getElem.mp isIn
    exact (outside (stop + i) (by omega)).mpr (.inr (by omega))
  have whole : xs = xs.take start ++ ((xs.drop start).take (stop - start) ++ xs.drop stop) := by
    have rest : xs.drop stop = (xs.drop start).drop (stop - start) := by
      rw [List.drop_drop]
      congr 1
      omega
    rw [rest, List.take_append_drop, List.take_append_drop]
  calc eraseSpan xs start stop
      = (xs.take start).filter keep ++ (((xs.drop start).take (stop - start)).filter keep ++
          (xs.drop stop).filter keep) := by rw [front, middle, back, List.nil_append, eraseSpan]
    _ = xs.filter keep := by rw [← List.filter_append, ← List.filter_append, ← whole]

theorem getElem?_filter {xs : List α} {keep : α → Bool} {i : Nat} {x : α}
    (here : xs[i]? = some x) (kept : keep x = true) :
    (xs.filter keep)[(xs.take i).countP keep]? = some x := by
  obtain ⟨inside, rfl⟩ := List.getElem?_eq_some_iff.mp here
  have whole : xs.filter keep =
      (xs.take i).filter keep ++ xs[i] :: (xs.drop (i + 1)).filter keep := by
    rw [← List.filter_cons_of_pos kept, ← List.filter_append, ← List.drop_eq_getElem_cons inside,
      List.take_append_drop]
  rw [whole, List.countP_eq_length_filter, List.getElem?_append_right le_rfl, Nat.sub_self]
  rfl

variable {low high : Bound}

theorem eraseSpan_eq_unselected (xs : List α) (ordered : low.first ≤ high.behind xs.length) :
    eraseSpan xs low.first (high.behind xs.length) = unselected low high xs := by
  have outside : ∀ i (inside : i < xs.zipIdx.length),
      (!selected low high xs.zipIdx[i].2) = true ↔ i < low.first ∨ high.behind xs.length ≤ i := by
    intro i inside
    rw [List.length_zipIdx] at inside
    rw [List.getElem_zipIdx, Nat.zero_add, Bool.not_eq_true', ← Bool.not_eq_true,
      selected_iff inside]
    omega
  rw [unselected, ← eraseSpan_eq_filter ordered outside, eraseSpan, eraseSpan, List.map_append,
    List.map_take, List.map_drop, List.zipIdx_map_fst]

theorem unselected_getElem? {xs : List α} {i : Nat} {x : α} (here : xs[i]? = some x)
    (kept : selected low high i = false) :
    (unselected low high xs)[unselectedBefore low high i]? = some x := by
  have inside := (List.getElem?_eq_some_iff.mp here).1
  have before : (xs.zipIdx.take i).countP (fun p => !selected low high p.2) =
      unselectedBefore low high i := by
    have positions : (xs.zipIdx.take i).map Prod.snd = List.range i := by
      rw [List.map_take, List.zipIdx_map_snd, ← List.range_eq_range', List.take_range,
        Nat.min_eq_left (Nat.le_of_lt inside)]
    rw [unselectedBefore, ← positions, List.countP_map]
    rfl
  have numbered : xs.zipIdx[i]? = some (x, i) := by
    rw [List.getElem?_zipIdx, here, Nat.zero_add]
    rfl
  rw [unselected, List.getElem?_map, ← before,
    getElem?_filter numbered (Bool.not_eq_true' _ |>.mpr kept)]
  rfl

theorem mem_unselected {xs : List α} {x : α} (isIn : x ∈ unselected low high xs) :
    ∃ i, xs[i]? = some x ∧ selected low high i = false := by
  obtain ⟨⟨y, i⟩, stays, rfl⟩ := List.mem_map.mp isIn
  obtain ⟨numbered, kept⟩ := List.mem_filter.mp stays
  exact ⟨i, List.mem_zipIdx_iff_getElem?.mp numbered, (Bool.not_eq_true' _).mp kept⟩

end Entries

/-- What erasing a range does to a container. Misused bounds are a fault of a kind that applies,
and nothing changes. Otherwise the entries outside the bounds are left, in the way `left` says. -/
structure Erases {σ : Type} (low high : Bound) (op : Edit σ Unit) (x : σ) (entries : List α)
    (left : List α → σ → Prop) : Prop where
  faults : ∀ l, (∃ f, Misused low high entries.length f) →
    ∃ f, Misused low high entries.length f ∧ op ⟨x, l⟩ = .error (.fault f) ⟨x, l⟩
  erases : ∀ l, (∀ f, ¬Misused low high entries.length f) →
    ∃ y, op ⟨x, l⟩ = .ok () ⟨y, l⟩ ∧ left (unselected low high entries) y

theorem Erases.of_cut {σ : Type} {low high : Bound} {op : Edit σ Unit} {x : σ}
    {entries : List α} {left : List α → σ → Prop} (lowWord : low.IsWord) (highWord : high.IsWord)
    (cut : Nat → Nat → σ)
    (cuts : ∀ l, op ⟨x, l⟩ = (Edit.ofExcept (span low high entries.length) >>= fun ends =>
      Edit.put (cut ends.1 ends.2)) ⟨x, l⟩)
    (leaves : low.first ≤ high.behind entries.length → high.behind entries.length ≤ entries.length →
      left (unselected low high entries) (cut low.first (high.behind entries.length))) :
    Erases low high op x entries left := by
  obtain ⟨f, misused, span⟩ | ⟨proper, span⟩ := span_cases lowWord highWord entries.length
  · refine ⟨fun l _ => ⟨f, misused, ?_⟩, fun _ proper => absurd misused (proper f)⟩
    rw [cuts, span]
    rfl
  · obtain ⟨ordered, inside⟩ := span_inside span
    refine ⟨fun _ ⟨f, misused⟩ => absurd misused (proper f), fun l _ => ?_⟩
    refine ⟨_, ?_, leaves ordered inside⟩
    rw [cuts, span]
    rfl

section Containers

variable {low high : Bound}

theorem Sequence.eraseRange_erases (lowWord : low.IsWord) (highWord : high.IsWord)
    (s : Sequence Value) : Erases low high (eraseRange low high) s s.items
      fun items u => u = { s with items } := by
  refine .of_cut lowWord highWord
    (fun start stop => { s with items := eraseSpan s.items start stop })
    (fun _ => rfl) fun ordered _ => ?_
  rw [eraseSpan_eq_unselected s.items ordered]

theorem Object.eraseRange_erases (lowWord : low.IsWord) (highWord : high.IsWord)
    (o : Object Value) : Erases low high (eraseRange low high) o o.members
      fun members p => p = { o with members } := by
  refine .of_cut lowWord highWord
    (fun start stop => { o with members := eraseSpan o.members start stop })
    (fun _ => rfl) fun ordered _ => ?_
  rw [eraseSpan_eq_unselected o.members ordered]

namespace InsertionObject

variable {o p : InsertionObject Value}

/-- An object with these members in place of those of `o`. Every key of `o` is found where its
member is now, or not at all. -/
structure ClosedUp (low high : Bound) (o : InsertionObject Value) (members : List (Member Value))
    (p : InsertionObject Value) : Prop where
  home : p.home = o.home
  capacity : p.capacity = o.capacity
  members : p.members = members
  keyIndex : p.KeyIndex
  found : ∀ i m, o.members[i]? = some m → selected low high i = false →
    p.find? m.key = some (unselectedBefore low high i)
  gone : ∀ i m, o.members[i]? = some m → selected low high i = true → p.find? m.key = none

theorem Indexed.closedUp (sound : o.Indexed) (ordered : low.first ≤ high.behind o.members.length)
    (inside : high.behind o.members.length ≤ o.members.length) :
    ClosedUp low high o (unselected low high o.members)
      (o.removeSpan low.first (high.behind o.members.length)) := by
  have members : (o.removeSpan low.first (high.behind o.members.length)).members =
      unselected low high o.members := eraseSpan_eq_unselected o.members ordered
  have index := (sound.removeSpan ordered inside).keyIndex
  refine ⟨rfl, rfl, members, index, ?_, ?_⟩
  · intro i m here kept
    rw [index.found, members]
    exact ⟨m, unselected_getElem? here kept, rfl⟩
  · intro i m here cut
    rw [index.missing, members]
    intro k isIn sameKey
    obtain ⟨j, there, kept⟩ := mem_unselected isIn
    -- One key stands at one position, and this one is cut out.
    have first := (sound.keyIndex.found m.key i).mpr ⟨m, here, rfl⟩
    have second := (sound.keyIndex.found m.key j).mpr ⟨k, there, sameKey⟩
    rw [first, Option.some.injEq] at second
    rw [second, kept] at cut
    cases cut

theorem eraseRange_erases (lowWord : low.IsWord) (highWord : high.IsWord) (sound : o.Indexed) :
    Erases low high (eraseRange low high) o o.members (ClosedUp low high o) :=
  .of_cut lowWord highWord o.removeSpan (fun _ => rfl) sound.closedUp

end InsertionObject

end Containers

/-- Erasing a range is exact for all bounds, in every container. -/
theorem ranges_are_erased_exactly (low high : Bound) (lowWord : low.IsWord)
    (highWord : high.IsWord) :
    (∀ s : Sequence Value, Erases low high (Sequence.eraseRange low high) s s.items
      fun items u => u = { s with items }) ∧
    (∀ o : Object Value, Erases low high (Object.eraseRange low high) o o.members
      fun members p => p = { o with members }) ∧
    ∀ o : InsertionObject Value, o.Built →
      Erases low high (InsertionObject.eraseRange low high) o o.members (o.ClosedUp low high) := by
  refine ⟨?_, ?_, ?_⟩
  · exact Sequence.eraseRange_erases lowWord highWord
  · exact Object.eraseRange_erases lowWord highWord
  · exact fun o built => InsertionObject.eraseRange_erases lowWord highWord built.indexed

def sampleItems : Sequence Value := .ofList [.null, .emptyObject, .null]

def sampleThree : InsertionObject Value :=
  leftBy ((ObjectOp.extend [⟨"c", .null⟩, ⟨"a", .emptyObject⟩, ⟨"b", .null⟩]).run
    ⟨.empty .heap, []⟩)

theorem sampleThree_built : sampleThree.Built := by
  refine .run _ [] (.empty .heap) trivial ?_
  exact List.forall_mem_cons.mpr ⟨.leaf _ _, List.forall_mem_cons.mpr ⟨.leaf _ _,
    List.forall_mem_singleton.mpr (.leaf _ _)⟩⟩

theorem ranges_are_erased_exactly_sample :
    (Bound.excluded 0).IsWord ∧ (Bound.included 1).IsWord ∧ sampleThree.Built ∧
      Erases (.excluded 0) (.included 1) (Sequence.eraseRange (.excluded 0) (.included 1))
        sampleItems sampleItems.items (fun items u => u = { sampleItems with items }) ∧
      Erases (.excluded 0) (.included 1) (InsertionObject.eraseRange (.excluded 0) (.included 1))
        sampleThree sampleThree.members (sampleThree.ClosedUp (.excluded 0) (.included 1)) := by
  have low : (Bound.excluded 0).IsWord := by unfold Bound.IsWord; decide
  have high : (Bound.included 1).IsWord := by unfold Bound.IsWord; decide
  obtain ⟨sequences, -, objects⟩ := ranges_are_erased_exactly _ _ low high
  exact ⟨low, high, sampleThree_built, sequences sampleItems, objects sampleThree sampleThree_built⟩

example : Sequence.eraseRange (.excluded (positionLimit - 1)) (.excluded 0) ⟨sampleItems, []⟩ =
    .error (.fault .rangeStartOverflow) ⟨sampleItems, []⟩ := rfl

end DocTree
