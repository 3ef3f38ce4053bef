import DocTree.Proofs.InsertionRuns

/-!
Members cut in two where a merge goes on. No positions are kept, and no index.
-/

namespace DocTree

def overwritten (m : Member Value) (x : Member Value) : Member Value :=
  if x.key = m.key then m else x

theorem key_overwritten (m x : Member Value) : (overwritten m x).key = x.key := by
  unfold overwritten
  split
  · rename_i same
    exact same.symm
  · rfl

theorem map_key_overwritten (m : Member Value) (ms : List (Member Value)) :
    (ms.map (overwritten m)).map Member.key = ms.map Member.key := by
  simp only [List.map_map, Function.comp_def, key_overwritten]

theorem map_overwritten_of_own {m : Member Value} {ms : List (Member Value)}
    (own : ∀ x ∈ ms, x.key = m.key → x = m) : ms.map (overwritten m) = ms := by
  have same : ∀ x ∈ ms, overwritten m x = x := by
    intro x isIn
    unfold overwritten
    split
    · rename_i key
      exact (own x isIn key).symm
    · rfl
  rw [List.map_congr_left same, List.map_id']

theorem Distinct.set_eq_map {ms : List (Member Value)} (distinct : Distinct ms)
    {m : Member Value} {pos : Nat} (here : (ms.map Member.key)[pos]? = some m.key) :
    ms.set pos m = ms.map (overwritten m) := by
  apply List.ext_getElem?
  intro i
  rw [List.getElem?_set, List.getElem?_map]
  by_cases same : pos = i
  · subst same
    obtain ⟨x, found, key⟩ := (key_at_iff ms pos m.key).mp here
    have inside : pos < ms.length := (List.getElem?_eq_some_iff.mp found).1
    rw [if_pos rfl, if_pos inside, found, Option.map_some, overwritten, if_pos key]
  · rw [if_neg same]
    cases found : ms[i]? with
    | none => rfl
    | some x =>
      have apart : x.key ≠ m.key := fun key =>
        same (distinct.position_unique here ((key_at_iff ms i m.key).mpr ⟨x, found, key⟩))
      simp [overwritten, apart]

/-- Members in two parts. A merge goes on where the right one begins. -/
structure Split where
  home : Home
  left : List (Member Value)
  right : List (Member Value)

namespace Split

def cut (o : InsertionObject Value) (hint : Nat) : Split where
  home := o.home
  left := o.members.take (min hint o.members.length)
  right := o.members.drop (min hint o.members.length)

def members (s : Split) : List (Member Value) := s.left ++ s.right

def keys (s : Split) : List String := s.members.map Member.key

def Heads (s : Split) (key : String) : Prop := s.right.head?.map Member.key = some key

instance (s : Split) (key : String) : Decidable (s.Heads key) :=
  inferInstanceAs (Decidable (_ = _))

def meet (s : Split) (m : Member Value) : Split :=
  if s.Heads m.key then
    { s with left := s.left ++ s.right.take 1, right := s.right.drop 1 }
  else if m.key ∈ s.keys then s
  else { s with left := s.left ++ [m] }

def assign (s : Split) (m : Member Value) : Split :=
  { s with left := s.left.map (overwritten m), right := s.right.map (overwritten m) }

def step (overwrite : Bool) (s : Split) (m : Member Value) : Split :=
  if overwrite then (s.meet m).assign m else s.meet m

def plain (s : Split) : PlainList := ⟨s.home, s.members⟩

section Step

variable (s : Split) (m : Member Value)

theorem members_moved : s.left ++ s.right.take 1 ++ s.right.drop 1 = s.members := by
  rw [List.append_assoc, List.take_append_drop, members]

theorem Heads.mem {s : Split} {key : String} (heads : s.Heads key) : key ∈ s.keys := by
  obtain ⟨x, first, rfl⟩ := Option.map_eq_some_iff.mp heads
  have isIn : x ∈ s.members := List.mem_append_right _ (List.mem_of_mem_head? first)
  exact List.mem_map_of_mem isIn

theorem members_meet_of_known {s : Split} {m : Member Value} (known : m.key ∈ s.keys) :
    (s.meet m).members = s.members := by
  unfold meet
  rw [if_pos known]
  split
  · exact s.members_moved
  · rfl

theorem meet_of_unknown {s : Split} {m : Member Value} (fresh : m.key ∉ s.keys) :
    s.meet m = { s with left := s.left ++ [m] } := by
  unfold meet
  rw [if_neg fun heads => fresh heads.mem, if_neg fresh]

theorem members_assign : (s.assign m).members = s.members.map (overwritten m) := by
  simp only [assign, members, List.map_append]

theorem keys_assign : (s.assign m).keys = s.keys := by
  rw [keys, members_assign, map_key_overwritten, keys]

theorem left_assign : (s.assign m).left.map Member.key = s.left.map Member.key :=
  map_key_overwritten m s.left

theorem home_step (overwrite : Bool) : (s.step overwrite m).home = s.home := by
  unfold step meet
  cases overwrite <;> simp only [assign] <;> split_ifs <;> rfl

theorem keys_step (overwrite : Bool) : (s.step overwrite m).keys = (s.meet m).keys := by
  cases overwrite
  · rfl
  · exact keys_assign _ _

theorem left_step (overwrite : Bool) :
    (s.step overwrite m).left.map Member.key = (s.meet m).left.map Member.key := by
  cases overwrite
  · rfl
  · exact left_assign _ _

theorem heads_iff {s : Split} (distinct : Distinct s.members) {key : String} {pos : Nat}
    (here : s.keys[pos]? = some key) : s.Heads key ↔ pos = s.left.length := by
  have first : s.keys[s.left.length]? = s.right.head?.map Member.key := by
    rw [keys, members, List.map_append, List.getElem?_append_right (by simp)]
    simp [List.head?_eq_getElem?]
  constructor
  · intro heads
    exact distinct.position_unique here (first.trans heads)
  · rintro rfl
    exact first.symm.trans here

theorem nextPlace_of_known (distinct : Distinct s.members) {pos : Nat}
    (here : s.keys[pos]? = some m.key) :
    InsertionObject.nextPlace s.left.length pos = (s.meet m).left.length := by
  have known : m.key ∈ s.keys := List.mem_of_getElem? here
  unfold InsertionObject.nextPlace meet
  rw [if_pos known]
  by_cases heads : s.Heads m.key
  · obtain ⟨x, first, -⟩ := Option.map_eq_some_iff.mp heads
    rw [if_pos ((heads_iff distinct here).mp heads), if_pos heads]
    cases right : s.right <;> simp_all
  · rw [if_neg fun same => heads ((heads_iff distinct here).mpr same), if_neg heads]

theorem length_left_step (overwrite : Bool) :
    (s.step overwrite m).left.length = (s.meet m).left.length := by
  have keys := congrArg List.length (s.left_step m overwrite)
  simpa only [List.length_map] using keys

theorem plain_step_of_known {pos : Nat} (distinct : Distinct s.members)
    (here : s.keys[pos]? = some m.key) :
    (s.step true m).plain = ⟨s.home, s.members.set pos m⟩ := by
  have known : m.key ∈ s.keys := List.mem_of_getElem? here
  rw [plain, home_step, distinct.set_eq_map here, ← members_meet_of_known known,
    ← members_assign]
  rfl

theorem plain_step_of_unknown (overwrite : Bool) (fresh : m.key ∉ s.keys) :
    (s.step overwrite m).plain =
      ⟨s.home, s.members.take s.left.length ++ m :: s.members.drop s.left.length⟩ := by
  have spliced : (s.meet m).members =
      s.members.take s.left.length ++ m :: s.members.drop s.left.length := by
    rw [meet_of_unknown fresh]
    simp [members]
  rw [plain, home_step, ← spliced]
  cases overwrite
  · rfl
  · -- The member is there already with the value that comes in.
    have settled : ((s.meet m).assign m).members = (s.meet m).members := by
      rw [members_assign]
      apply map_overwritten_of_own
      intro x isIn key
      rw [spliced, List.mem_append, List.mem_cons] at isIn
      have unknown : x ∉ s.members := fun isIn => fresh (key ▸ List.mem_map_of_mem isIn)
      rcases isIn with before | rfl | behind
      · exact absurd (List.mem_of_mem_take before) unknown
      · rfl
      · exact absurd (List.mem_of_mem_drop behind) unknown
    exact congrArg (PlainList.mk s.home) settled

theorem distinct_step (overwrite : Bool) (distinct : Distinct s.members) :
    Distinct (s.step overwrite m).members := by
  change (s.step overwrite m).keys.Nodup
  rw [keys_step]
  by_cases known : m.key ∈ s.keys
  · rw [keys, members_meet_of_known known]
    exact distinct
  · rw [meet_of_unknown known]
    have perm : (s.left ++ [m] ++ s.right).Perm (m :: s.members) := by
      rw [List.append_assoc, List.singleton_append]
      exact List.perm_middle
    exact distinct.withMember known perm

end Step

section Account

variable (overwrite : Bool) (s : Split) (m : Member Value)

def run (s : Split) (overwrite : Bool) (source : List (Member Value)) : Split :=
  source.foldl (step overwrite) s

theorem meet_of_known {s : Split} {m : Member Value} (known : m.key ∈ s.keys) (v : Value) :
    s.meet m = s.meet ⟨m.key, v⟩ := by
  unfold meet
  rw [if_pos known, if_pos (show (Member.mk m.key v).key ∈ s.keys from known)]

/-- What a merge leaves alone of a member: where it may overwrite, the key. -/
def untouched (overwrite : Bool) (x : Member Value) : String × Option Value :=
  (x.key, if overwrite then none else some x.value)

theorem left_meet : s.left <+: (s.meet m).left := by
  unfold meet
  split_ifs
  · exact List.prefix_append _ _
  · exact List.prefix_rfl
  · exact List.prefix_append _ _

theorem members_meet : s.members.Sublist (s.meet m).members := by
  by_cases known : m.key ∈ s.keys
  · rw [members_meet_of_known known]
  · rw [meet_of_unknown known]
    exact (List.sublist_append_left s.left [m]).append_right s.right

theorem map_untouched_overwritten (ms : List (Member Value)) :
    (ms.map (overwritten m)).map (untouched true) = ms.map (untouched true) := by
  simp [untouched, key_overwritten]

theorem left_untouched :
    s.left.map (untouched overwrite) <+: (s.step overwrite m).left.map (untouched overwrite) := by
  have grown := (s.left_meet m).map (untouched overwrite)
  cases overwrite with
  | false => exact grown
  | true =>
    change _ <+: ((s.meet m).left.map (overwritten m)).map (untouched true)
    rwa [map_untouched_overwritten]

theorem members_untouched : (s.members.map (untouched overwrite)).Sublist
    ((s.step overwrite m).members.map (untouched overwrite)) := by
  have grown := (s.members_meet m).map (untouched overwrite)
  cases overwrite with
  | false => exact grown
  | true =>
    change List.Sublist _ (((s.meet m).assign m).members.map (untouched true))
    rwa [members_assign, map_untouched_overwritten]

/-- The parts go on from an object with the keys `old`: all are still there, and the right part has
no others. -/
structure Continues (old : List String) (s : Split) : Prop where
  known : ∀ key ∈ old, key ∈ s.keys
  right : ∀ key ∈ s.right.map Member.key, key ∈ old

theorem right_step : (s.step overwrite m).right.map Member.key ⊆ s.right.map Member.key := by
  have behind : (s.meet m).right.map Member.key ⊆ s.right.map Member.key := by
    unfold meet
    split_ifs
    · exact List.map_subset _ (List.drop_subset 1 s.right)
    · exact List.Subset.refl _
    · exact List.Subset.refl _
  cases overwrite with
  | false => exact behind
  | true =>
    change ((s.meet m).right.map (overwritten m)).map Member.key ⊆ _
    rwa [map_key_overwritten]

variable {s} {old : List String}

theorem Continues.step (goes : s.Continues old) : (s.step overwrite m).Continues old where
  known key isIn := by
    rw [keys_step]
    exact ((s.members_meet m).map Member.key).subset (goes.known key isIn)
  right key isIn := goes.right key (s.right_step overwrite m isIn)

def newIn (old : List String) (ms : List (Member Value)) : List (Member Value) :=
  ms.filter fun x => x.key ∉ old

theorem newIn_of_old {ms : List (Member Value)} (known : ∀ key ∈ ms.map Member.key, key ∈ old) :
    newIn old ms = [] := by
  simpa [newIn] using known

theorem Continues.newIn_step (goes : s.Continues old)
    (own : m.key ∈ s.keys → m.key ∈ old) :
    newIn old (s.step overwrite m).members = newIn old s.members ++ newIn old [m] := by
  by_cases known : m.key ∈ old
  · have here := goes.known _ known
    have nothing : newIn old [m] = [] := newIn_of_old (by simpa using known)
    rw [nothing, List.append_nil]
    cases overwrite with
    | false => exact congrArg (newIn old) (members_meet_of_known here)
    | true =>
      change newIn old ((s.meet m).assign m).members = _
      rw [members_assign, members_meet_of_known here, newIn, List.filter_map]
      simp only [Function.comp_def, key_overwritten]
      -- A new member has another key, so its value stays.
      apply map_overwritten_of_own
      intro x isIn key
      have apart := (List.mem_filter.mp isIn).2
      simp only [key, decide_eq_true_eq] at apart
      exact absurd known apart
  · have fresh : m.key ∉ s.keys := fun isIn => known (own isIn)
    have members : (s.step overwrite m).members = s.left ++ m :: s.right := by
      have spliced := congrArg PlainList.members (plain_step_of_unknown s m overwrite fresh)
      simpa [Split.members, plain] using spliced
    have right : newIn old s.right = [] := newIn_of_old goes.right
    unfold newIn at right ⊢
    rw [members, Split.members, List.filter_append, List.filter_append, List.filter_cons, right]
    simp [known]

theorem Continues.newIn_run (goes : s.Continues old) {source : List (Member Value)}
    (distinct : Distinct source) (own : ∀ m ∈ source, m.key ∈ s.keys → m.key ∈ old) :
    newIn old (s.run overwrite source).members = newIn old s.members ++ newIn old source := by
  induction source generalizing s with
  | nil => exact (List.append_nil _).symm
  | cons m source ih =>
    obtain ⟨fresh, distinct⟩ := (distinct_cons m source).mp distinct
    have first := goes.newIn_step overwrite m (own m List.mem_cons_self)
    have later : ∀ x ∈ source, x.key ∈ (s.step overwrite m).keys → x.key ∈ old := by
      intro x isIn here
      apply own x (List.mem_cons_of_mem m isIn)
      rw [keys_step] at here
      by_cases known : m.key ∈ s.keys
      · rwa [keys, members_meet_of_known known] at here
      · rw [meet_of_unknown known] at here
        have apart : x.key ≠ m.key := fun same => fresh (same ▸ List.mem_map_of_mem isIn)
        simpa [keys, members, apart] using here
    have rest := ih (goes.step overwrite m) distinct later
    have single : newIn old (m :: source) = newIn old [m] ++ newIn old source :=
      List.filter_append [m] source
    rw [single, ← List.append_assoc, ← first]
    exact rest

example : ((Split.mk .heap [⟨"a", .null⟩] [⟨"b", .null⟩, ⟨"c", .null⟩]).run false
    [⟨"x", .null⟩, ⟨"b", .null⟩, ⟨"y", .null⟩, ⟨"a", .null⟩]).keys = ["a", "x", "b", "y", "c"] := by
  decide

theorem left_run_untouched (source : List (Member Value)) :
    s.left.map (untouched overwrite) <+:
      (s.run overwrite source).left.map (untouched overwrite) := by
  induction source generalizing s with
  | nil => exact List.prefix_rfl
  | cons m source ih => exact (s.left_untouched overwrite m).trans ih

theorem members_run_untouched (source : List (Member Value)) :
    (s.members.map (untouched overwrite)).Sublist
      ((s.run overwrite source).members.map (untouched overwrite)) := by
  induction source generalizing s with
  | nil => exact .refl _
  | cons m source ih => exact (s.members_untouched overwrite m).trans ih

end Account

end Split

end DocTree
