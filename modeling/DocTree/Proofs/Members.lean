import Mathlib.Data.List.InsertIdx
import DocTree.Proofs.Keys
import DocTree.Span

namespace DocTree

variable {α : Type}

/-- What a list of members says about a key: the value of the first one that has it. -/
def lookup (ms : List (Member α)) (key : String) : Option α :=
  (ms.find? (·.key = key)).map (·.value)

def Distinct (ms : List (Member α)) : Prop := (ms.map Member.key).Nodup

@[simp] theorem lookup_nil (key : String) : lookup ([] : List (Member α)) key = none := rfl

@[simp] theorem lookup_cons (m : Member α) (ms : List (Member α)) (key : String) :
    lookup (m :: ms) key = if m.key = key then some m.value else lookup ms key := by
  rw [lookup, List.find?_cons]
  by_cases here : m.key = key <;> simp [here, lookup]

theorem lookup_append (ms others : List (Member α)) (key : String) :
    lookup (ms ++ others) key = (lookup ms key).or (lookup others key) := by
  rw [lookup, List.find?_append]
  cases found : ms.find? (·.key = key) <;> simp [lookup, found]

theorem lookup_eq_none_iff (ms : List (Member α)) (key : String) :
    lookup ms key = none ↔ key ∉ ms.map Member.key := by
  simp [lookup]

theorem lookup_isSome_iff (ms : List (Member α)) (key : String) :
    (lookup ms key).isSome ↔ key ∈ ms.map Member.key := by
  rw [← not_iff_not, ← lookup_eq_none_iff]
  simp

theorem key_at_iff (ms : List (Member α)) (pos : Nat) (key : String) :
    (ms.map Member.key)[pos]? = some key ↔ ∃ m, ms[pos]? = some m ∧ m.key = key := by
  simp

theorem key_at_of_member {ms : List (Member α)} {pos : Nat} {m : Member α}
    (here : ms[pos]? = some m) : (ms.map Member.key)[pos]? = some m.key :=
  (key_at_iff ms pos m.key).mpr ⟨m, here, rfl⟩

theorem distinct_cons (m : Member α) (ms : List (Member α)) :
    Distinct (m :: ms) ↔ m.key ∉ ms.map Member.key ∧ Distinct ms :=
  List.nodup_cons

theorem Distinct.sublist {ms others : List (Member α)} (distinct : Distinct ms)
    (part : others.Sublist ms) : Distinct others :=
  List.Nodup.sublist (part.map Member.key) distinct

theorem Distinct.append {ms incoming : List (Member α)} (distinct : Distinct ms)
    (coming : Distinct incoming) (fresh : ∀ m ∈ incoming, m.key ∉ ms.map Member.key) :
    Distinct (ms ++ incoming) := by
  unfold Distinct
  rw [List.map_append]
  apply List.Nodup.append distinct coming
  intro key present incoming
  obtain ⟨m, member, rfl⟩ := List.mem_map.mp incoming
  exact fresh m member present

theorem AscendingBy.distinct {ms : List (Member α)} (ascending : AscendingBy Member.key ms) :
    Distinct ms :=
  ascending.nodup

theorem lookup_eq_some_iff {ms : List (Member α)} (distinct : Distinct ms) (key : String)
    (v : α) : lookup ms key = some v ↔ ⟨key, v⟩ ∈ ms := by
  induction ms with
  | nil => simp
  | cons m ms ih =>
    obtain ⟨fresh, distinct⟩ := (distinct_cons m ms).mp distinct
    rw [lookup_cons, List.mem_cons]
    split
    · rename_i here
      have absent : (⟨key, v⟩ : Member α) ∉ ms := fun member =>
        fresh (List.mem_map.mpr ⟨_, member, here.symm⟩)
      cases m
      simp_all [eq_comm]
    · rename_i elsewhere
      rw [ih distinct]
      refine (or_iff_right fun same => elsewhere ?_).symm
      exact same ▸ rfl

theorem lookup_perm {ms others : List (Member α)} (perm : ms.Perm others)
    (distinct : Distinct ms) (key : String) : lookup ms key = lookup others key := by
  have also : Distinct others := (perm.map Member.key).nodup_iff.mp distinct
  apply Option.ext
  intro v
  rw [lookup_eq_some_iff distinct, lookup_eq_some_iff also, perm.mem_iff]

theorem AscendingBy.ext_lookup {ms others : List (Member α)}
    (first : AscendingBy Member.key ms) (second : AscendingBy Member.key others)
    (same : ∀ key, lookup ms key = lookup others key) : ms = others := by
  apply first.ext second
  intro m
  have bySame := congrArg (· = some m.value) (same m.key)
  simpa only [eq_iff_iff, lookup_eq_some_iff first.distinct,
    lookup_eq_some_iff second.distinct] using bySame

theorem lookup_of_position {ms : List (Member α)} (distinct : Distinct ms) {pos : Nat}
    {m : Member α} (here : ms[pos]? = some m) : lookup ms m.key = some m.value :=
  (lookup_eq_some_iff distinct m.key m.value).mpr (List.mem_of_getElem? here)

theorem Distinct.ext_lookup {ms others : List (Member α)} (distinct : Distinct ms)
    (keys : ms.map Member.key = others.map Member.key)
    (same : ∀ key, lookup ms key = lookup others key) : ms = others := by
  have also : Distinct others := by rwa [Distinct, ← keys]
  apply List.ext_getElem?
  intro i
  have key : (ms.map Member.key)[i]? = (others.map Member.key)[i]? := by rw [keys]
  rw [List.getElem?_map, List.getElem?_map] at key
  cases first : ms[i]? with
  | none =>
    rw [first, Option.map_none, eq_comm, Option.map_eq_none_iff] at key
    exact key.symm
  | some m =>
    rw [first, Option.map_some, eq_comm, Option.map_eq_some_iff] at key
    obtain ⟨⟨k, w⟩, second, here⟩ := key
    obtain ⟨_, v⟩ := m
    obtain rfl : k = _ := here
    have value := same k
    rw [lookup_of_position distinct first, lookup_of_position also second] at value
    obtain rfl : v = w := Option.some.inj value
    exact second.symm

theorem Distinct.withMember {ms more : List (Member α)} {m : Member α} (distinct : Distinct ms)
    (fresh : m.key ∉ ms.map Member.key) (perm : more.Perm (m :: ms)) : Distinct more :=
  (perm.map Member.key).nodup_iff.mpr ((distinct_cons m ms).mpr ⟨fresh, distinct⟩)

theorem lookup_withMember {ms more : List (Member α)} {m : Member α} (distinct : Distinct ms)
    (fresh : m.key ∉ ms.map Member.key) (perm : more.Perm (m :: ms)) (key : String) :
    lookup more key = if m.key = key then some m.value else lookup ms key := by
  rw [lookup_perm perm (distinct.withMember fresh perm), lookup_cons]

theorem map_key_modify (ms : List (Member α)) (pos : Nat) (v : α) :
    (ms.modify pos fun m => { m with value := v }).map Member.key = ms.map Member.key := by
  apply List.ext_getElem?
  intro i
  simp only [List.getElem?_map, List.getElem?_modify]
  cases ms[i]? <;> by_cases here : pos = i <;> simp [here]

theorem modify_eq_set {ms : List (Member α)} {pos : Nat} {key : String}
    (here : (ms.map Member.key)[pos]? = some key) (v : α) :
    (ms.modify pos fun m => { m with value := v }) = ms.set pos ⟨key, v⟩ := by
  obtain ⟨inside, same⟩ := List.getElem?_eq_some_iff.mp here
  rw [List.length_map] at inside
  rw [List.getElem_map] at same
  rw [List.modify_eq_set_get _ inside]
  simp [same]

theorem lookup_modify {ms : List (Member α)} (distinct : Distinct ms) {pos : Nat} {key : String}
    (here : (ms.map Member.key)[pos]? = some key) (v : α) (other : String) :
    lookup (ms.modify pos fun m => { m with value := v }) other =
      if key = other then some v else lookup ms other := by
  induction ms generalizing pos with
  | nil => simp at here
  | cons m ms ih =>
    obtain ⟨fresh, distinct⟩ := (distinct_cons m ms).mp distinct
    cases pos with
    | zero =>
      obtain rfl : m.key = key := by simpa using here
      by_cases same : m.key = other <;> simp [same]
    | succ pos =>
      have later : (ms.map Member.key)[pos]? = some key := by simpa using here
      have apart : m.key ≠ key := fun same => fresh (same ▸ List.mem_of_getElem? later)
      rw [List.modify_succ_cons, lookup_cons, ih distinct later, lookup_cons]
      by_cases same : key = other
      · subst same
        simp [apart]
      · simp [same]

theorem lookup_eraseIdx {ms : List (Member α)} (distinct : Distinct ms) {pos : Nat}
    {key : String} (here : (ms.map Member.key)[pos]? = some key) (other : String) :
    lookup (ms.eraseIdx pos) other = if key = other then none else lookup ms other := by
  induction ms generalizing pos with
  | nil => simp at here
  | cons m ms ih =>
    obtain ⟨fresh, distinct⟩ := (distinct_cons m ms).mp distinct
    cases pos with
    | zero =>
      obtain rfl : m.key = key := by simpa using here
      rw [List.eraseIdx_cons_zero, lookup_cons]
      by_cases same : m.key = other
      · simpa [same] using (lookup_eq_none_iff ms other).mpr (same ▸ fresh)
      · simp [same]
    | succ pos =>
      have later : (ms.map Member.key)[pos]? = some key := by simpa using here
      have apart : m.key ≠ key := fun same => fresh (same ▸ List.mem_of_getElem? later)
      rw [List.eraseIdx_cons_succ, lookup_cons, ih distinct later, lookup_cons]
      by_cases same : key = other
      · subst same
        simp [apart]
      · simp [same]

theorem eraseSpan_sublist (ms : List (Member α)) {start stop : Nat} (ordered : start ≤ stop) :
    (eraseSpan ms start stop).Sublist ms := by
  have rest : (ms.drop stop).Sublist (ms.drop start) := by
    obtain ⟨n, rfl⟩ := Nat.exists_eq_add_of_le ordered
    rw [← List.drop_drop]
    exact List.drop_sublist n _
  have whole := (List.Sublist.refl (ms.take start)).append rest
  rwa [List.take_append_drop] at whole

theorem lookup_eraseSpan {ms : List (Member α)} (distinct : Distinct ms) {start stop : Nat}
    (ordered : start ≤ stop) (key : String) :
    lookup (eraseSpan ms start stop) key =
      if key ∈ ((ms.map Member.key).take stop).drop start then none else lookup ms key := by
  have whole : ms = ms.take start ++ ((ms.take stop).drop start ++ ms.drop stop) := by
    have prefixes : ms.take start = (ms.take stop).take start := by
      rw [List.take_take, Nat.min_eq_left ordered]
    rw [prefixes, ← List.append_assoc, List.take_append_drop, List.take_append_drop]
  rw [← List.map_take, ← List.map_drop, eraseSpan]
  generalize ms.take start = front at whole ⊢
  generalize (ms.take stop).drop start = middle at whole ⊢
  generalize ms.drop stop = back at whole ⊢
  subst whole
  rw [lookup_append, lookup_append, lookup_append]
  split
  · rename_i removed
    unfold Distinct at distinct
    rw [List.map_append, List.map_append] at distinct
    have notInFront : key ∉ front.map Member.key := fun inFront =>
      List.disjoint_of_nodup_append distinct inFront (List.mem_append_left _ removed)
    have notInBack : key ∉ back.map Member.key := fun inBack =>
      List.disjoint_of_nodup_append distinct.of_append_right removed inBack
    rw [(lookup_eq_none_iff front key).mpr notInFront, (lookup_eq_none_iff back key).mpr notInBack]
    rfl
  · rename_i kept
    rw [(lookup_eq_none_iff middle key).mpr kept, Option.none_or]

theorem insertIdx_eq_take_drop (ms : List (Member α)) (m : Member α) {pos : Nat}
    (inside : pos ≤ ms.length) : ms.insertIdx pos m = ms.take pos ++ m :: ms.drop pos := by
  have between := insertIdx_between (ms.take pos) (ms.drop pos) m
  rwa [List.take_append_drop, List.length_take, Nat.min_eq_left inside] at between

theorem span_inside {low high : Bound} {size start stop : Nat}
    (valid : span low high size = .ok (start, stop)) : start ≤ stop ∧ stop ≤ size := by
  unfold span at valid
  cases first : low.start with
  | error fault => rw [first] at valid; cases valid
  | ok a =>
    cases last : high.stop size with
    | error fault => rw [first, last] at valid; cases valid
    | ok b =>
      rw [first, last] at valid
      simp only [bind, Except.bind, pure, Except.pure] at valid
      by_cases reversed : b < a
      · rw [if_pos reversed] at valid
        cases valid
      · by_cases past : size < b
        · rw [if_neg reversed, if_pos past] at valid
          cases valid
        · rw [if_neg reversed, if_neg past] at valid
          cases valid
          exact ⟨Nat.le_of_not_lt reversed, Nat.le_of_not_lt past⟩

theorem Distinct.position_unique {ms : List (Member α)} (distinct : Distinct ms) {i j : Nat}
    {key : String} (first : (ms.map Member.key)[i]? = some key)
    (second : (ms.map Member.key)[j]? = some key) : i = j := by
  obtain ⟨inside, -⟩ := List.getElem?_eq_some_iff.mp first
  exact (List.getElem?_inj inside distinct).mp (first.trans second.symm)

theorem Distinct.findIdx?_eq_some_iff {ms : List (Member α)} (distinct : Distinct ms)
    (key : String) (pos : Nat) :
    ms.findIdx? (·.key = key) = some pos ↔ (ms.map Member.key)[pos]? = some key := by
  rw [List.findIdx?_eq_some_iff_getElem]
  constructor
  · rintro ⟨inside, same, -⟩
    simpa [List.getElem?_eq_getElem inside] using same
  · intro here
    obtain ⟨inside, same⟩ := List.getElem?_eq_some_iff.mp here
    rw [List.length_map] at inside
    rw [List.getElem_map] at same
    refine ⟨inside, decide_eq_true same, fun i before => ?_⟩
    rw [decide_eq_true_eq]
    intro earlier
    have also : (ms.map Member.key)[i]? = some key := by
      simp [List.getElem?_eq_getElem (before.trans inside), earlier]
    exact absurd (distinct.position_unique also here) (Nat.ne_of_lt before)

theorem findIdx?_eq_none_iff_unknown (ms : List (Member α)) (key : String) :
    ms.findIdx? (·.key = key) = none ↔ key ∉ ms.map Member.key := by
  simp

end DocTree
