import DocTree.Proofs.InsertionRuns
import DocTree.Proofs.Readings
import DocTree.Proofs.SortedRuns

/-!
The two kinds of objects side by side, under the same operations by key. Neither hints nor the
order of the members show in what they answer.
-/

namespace DocTree

/-- An operation by key on both kinds of objects. Hints are independent, and a source is given as
either kind has it. -/
inductive KeyedOp where
  | insertOrAssign (key : String) (v : Value)
  | tryEmplace (key : String) (v : Value)
  | insertOrAssignHint (hint other : Nat) (key : String) (v : Value)
  | tryEmplaceHint (hint other : Nat) (key : String) (v : Value)
  | erase (key : String)
  | extend (ms : List (Member Value))
  | extendSortedUnique (ms : List (Member Value))
  | merge (a : Object Value) (b : InsertionObject Value)
  | mergeOrUpdate (a : Object Value) (b : InsertionObject Value)
  | mergeHint (hint other : Nat) (a : Object Value) (b : InsertionObject Value)
  | mergeOrUpdateHint (hint other : Nat) (a : Object Value) (b : InsertionObject Value)
  | clear

structure KeyedTurn where
  op : KeyedOp
  ledger : Ledger
  other : Ledger

structure EqualSources (a : Object Value) (b : InsertionObject Value) : Prop where
  ordered : a.Ordered
  indexed : b.Indexed
  equal : equalByKey a.byKey b.byKey = true

/-- Answers that say the same. Positions mean different things and are left out. -/
inductive SameAnswer : Answer → Answer → Prop where
  | nothing : SameAnswer .nothing .nothing
  | placed (pos other : Nat) (isNew : Bool) : SameAnswer (.placed pos isNew) (.placed other isNew)
  | position (pos other : Nat) : SameAnswer (.position pos) (.position other)
  | value? {v w : Option Value} :
      Option.Rel (fun v w => v.equals w = true) v w → SameAnswer (.value? v) (.value? w)

namespace KeyedOp

def sorted : KeyedOp → ObjectOp (Object Value)
  | insertOrAssign key v => .insertOrAssign key v
  | tryEmplace key v => .tryEmplace key v
  | insertOrAssignHint hint _ key v => .insertOrAssignHint hint key v
  | tryEmplaceHint hint _ key v => .tryEmplaceHint hint key v
  | erase key => .erase key
  | extend ms => .extend ms
  | extendSortedUnique ms => .extendSortedUnique ms
  | merge a _ => .merge a
  | mergeOrUpdate a _ => .mergeOrUpdate a
  | mergeHint hint _ a _ => .mergeHint hint a
  | mergeOrUpdateHint hint _ a _ => .mergeOrUpdateHint hint a
  | clear => .clear

def inserted : KeyedOp → ObjectOp (InsertionObject Value)
  | insertOrAssign key v => .insertOrAssign key v
  | tryEmplace key v => .tryEmplace key v
  | insertOrAssignHint _ hint key v => .insertOrAssignHint hint key v
  | tryEmplaceHint _ hint key v => .tryEmplaceHint hint key v
  | erase key => .erase key
  | extend ms => .extend ms
  | extendSortedUnique ms => .extendSortedUnique ms
  | merge _ b => .merge b
  | mergeOrUpdate _ b => .mergeOrUpdate b
  | mergeHint _ hint _ b => .mergeHint hint b
  | mergeOrUpdateHint _ hint _ b => .mergeOrUpdateHint hint b
  | clear => .clear

/-- What the caller promises: equal sources, and what bulk insertion of sorted members asks. -/
def Promise : KeyedOp → Object Value → Prop
  | extendSortedUnique ms, s =>
    AscendingBy Member.key ms ∧ ∀ m ∈ ms, m.key ∉ s.members.map Member.key
  | merge a b, _ | mergeOrUpdate a b, _ | mergeHint _ _ a b, _ | mergeOrUpdateHint _ _ a b, _ =>
    EqualSources a b
  | _, _ => True

end KeyedOp

structure Twins (s : Object Value) (p : InsertionObject Value) : Prop where
  equal : equalByKey s.byKey p.byKey = true ∧ equalByKey p.byKey s.byKey = true
  order : compareByKey s.byKey p.byKey = .eq ∧ compareByKey p.byKey s.byKey = .eq
  get? : ∀ key, Option.Rel (fun v w => v.equals w = true) (s.get? key) (p.get? key)
  contains : ∀ key, (s.find? key).isSome = (p.find? key).isSome
  toValue : ∀ l w l', p.toValue l = .ok w l' →
    (Value.ofObject s).equals w = true ∧ w.equals (.ofObject s) = true
  toValue_heap : p.home = .heap → ∀ l, ∃ w l', p.toValue l = .ok w l'

/-- The results of one step on both objects: both end, or an arena is exhausted. -/
inductive Joint (R : Object Value → InsertionObject Value → Prop) (s : Object Value)
    (p : InsertionObject Value) : EStateM.Result Failure (Scene (Object Value)) Answer →
      EStateM.Result Failure (Scene (InsertionObject Value)) Answer → Prop where
  | ok {a b : Answer} {x : Scene (Object Value)} {y : Scene (InsertionObject Value)} :
      SameAnswer a b → R x.subject y.subject → Joint R s p (.ok a x) (.ok b y)
  | exhausted {bytes : Nat} {x : Scene (Object Value)}
      {r : EStateM.Result Failure (Scene (InsertionObject Value)) Answer} :
      s.home ≠ .heap → Joint R s p (.error (.exhausted bytes) x) r
  | otherExhausted {bytes : Nat} {r : EStateM.Result Failure (Scene (Object Value)) Answer}
      {y : Scene (InsertionObject Value)} :
      p.home ≠ .heap → Joint R s p r (.error (.exhausted bytes) y)

/-- The two objects are twins at first and after every promised step, and answer the same, until
an arena is exhausted. -/
def InStep : List KeyedTurn → Object Value → InsertionObject Value → Prop
  | [], s, p => Twins s p
  | turn :: turns, s, p => Twins s p ∧ (turn.op.Promise s →
    Joint (InStep turns) s p (turn.op.sorted.run ⟨s, turn.ledger⟩)
      (turn.op.inserted.run ⟨p, turn.other⟩))

structure Paired (s : Object Value) (p : InsertionObject Value) : Prop where
  ordered : s.Ordered
  indexed : p.Indexed
  agree : Agree (lookup s.members) (lookup p.members)

section Twins

variable {s : Object Value} {p : InsertionObject Value}

theorem Object.Ordered.lists (ordered : s.Ordered) :
    Object.Lists s ⟨s.home, Entries.addAllNew ∅ s.members⟩ := by
  refine ⟨ordered, rfl, fun key => ?_⟩
  rw [Entries.lookup_addAllNew, Finmap.lookup_empty, Option.none_or]

theorem Object.Ordered.get?_eq_lookup (ordered : s.Ordered) (key : String) :
    s.get? key = lookup s.members key := by
  rw [ordered.lists.get?, ordered.lists.lookup]

theorem equalByKey_of_agree {ms ns : List (Member Value)} (agree : Agree (lookup ms) (lookup ns))
    (first : AscendingBy Member.key ms) (second : AscendingBy Member.key ns) :
    equalByKey ms ns = true := by
  have keys := agree.map_key first second
  have lengths : ms.length = ns.length := by simpa using congrArg List.length keys
  unfold equalByKey
  rw [decide_eq_true lengths, agree.equalMembers keys first.distinct]
  rfl

theorem EqualSources.agree (sources : EqualSources s p) :
    Agree (lookup s.members) (lookup p.members) := by
  have members := ((Bool.and_eq_true _ _).mp sources.equal).2
  intro key
  rw [← sources.indexed.lookup_byKey]
  exact agree_of_equalMembers members key

theorem Paired.byKey (paired : Paired s p) : Agree (lookup s.byKey) (lookup p.byKey) := by
  intro key
  rw [paired.indexed.lookup_byKey]
  exact paired.agree key

theorem compareByKey_of_equal {ms ns : List (Member Value)} (equal : equalByKey ms ns = true) :
    compareByKey ms ns = .eq :=
  Value.compareMembers_of_equal ((Bool.and_eq_true _ _).mp equal).2

theorem Object.Ordered.find?_isSome (ordered : s.Ordered) (key : String) :
    (s.find? key).isSome = (lookup s.members key).isSome := by
  rw [ordered.lists.find?, ordered.lists.lookup, Bool.eq_iff_iff, Finmap.lookup_isSome]
  by_cases known : key ∈ Entries.addAllNew ∅ s.members <;> simp [known]

theorem InsertionObject.Indexed.find?_isSome (indexed : p.Indexed) (key : String) :
    (p.find? key).isSome = (lookup p.members key).isSome := by
  rw [Bool.eq_iff_iff, lookup_isSome_iff, ← not_iff_not, Option.not_isSome_iff_eq_none]
  exact indexed.find?_eq_none_iff key

theorem InsertionObject.toValue_ok {w : Value} {l l' : Ledger} (made : p.toValue l = .ok w l') :
    ∃ q : Object Value, w = .ofObject q ∧ q.Ordered ∧
      ∀ key, lookup q.members key = (lookup p.members key).map (·.housedIn p.home) := by
  obtain ⟨q, _, built, rest⟩ := bind_eq_ok made
  cases rest
  obtain ⟨ms, _, adopted, rest⟩ := bind_eq_ok built
  cases rest
  refine ⟨_, rfl, Object.ofMembers_ascending p.home ms, fun key => ?_⟩
  rw [Object.lookup_ofMembers, adoptMembersIn_ok adopted, lookup_map_housedIn]

theorem Agree.housed {f g h : String → Option Value} {home : Home} (agree : Agree f g)
    (housed : ∀ key, h key = (g key).map (·.housedIn home)) : Agree f h := by
  intro key
  have pair := agree key
  rw [housed]
  generalize f key = a at pair ⊢
  generalize g key = b at pair ⊢
  cases pair with
  | some equal => exact .some ((Value.equals_housedIn .heap home _ _).trans equal)
  | none => exact .none

theorem Paired.twins (paired : Paired s p) : Twins s p := by
  have forth := equalByKey_of_agree paired.byKey paired.ordered paired.indexed.byKey_ascending
  have back := equalByKey_of_agree paired.byKey.symm paired.indexed.byKey_ascending paired.ordered
  refine ⟨⟨forth, back⟩, ⟨compareByKey_of_equal forth, compareByKey_of_equal back⟩,
    fun key => ?_, fun key => ?_, fun l w l' made => ?_, fun heap l => ?_⟩
  · rw [paired.ordered.get?_eq_lookup, paired.indexed.get?_eq_lookup]
    exact paired.agree key
  · rw [paired.ordered.find?_isSome, paired.indexed.find?_isSome, paired.agree.isSome]
  · obtain ⟨q, rfl, ordered, values⟩ := InsertionObject.toValue_ok made
    have agree := paired.agree.housed values
    exact ⟨equalByKey_of_agree agree paired.ordered ordered,
      equalByKey_of_agree agree.symm ordered paired.ordered⟩
  · unfold InsertionObject.toValue
    rw [heap]
    exact ⟨_, _, rfl⟩

end Twins

namespace KeyedOp

def sources : KeyedOp → List (Member Value) × List (Member Value)
  | merge a b | mergeOrUpdate a b | mergeHint _ _ a b | mergeOrUpdateHint _ _ a b =>
    (a.members, b.members)
  | _ => ([], [])

def change (source : List (Member Value)) : KeyedOp → Change
  | insertOrAssign key v | insertOrAssignHint _ _ key v => adding true [⟨key, v⟩]
  | tryEmplace key v | tryEmplaceHint _ _ key v => adding false [⟨key, v⟩]
  | erase key => removing key
  | extend ms | extendSortedUnique ms => adding false ms
  | merge .. | mergeHint .. => adding false source
  | mergeOrUpdate .. | mergeOrUpdateHint .. => adding true source
  | clear => fun _ _ _ => none

def tells : KeyedOp → (String → Option Value) → Answer → Prop
  | insertOrAssign key _ | tryEmplace key _ => fun f a => ∃ pos, a = .placed pos (f key).isNone
  | insertOrAssignHint .. | tryEmplaceHint .. => fun _ a => ∃ pos, a = .position pos
  | erase key => fun f a => a = .value? (f key)
  | _ => fun _ a => a = .nothing

end KeyedOp

section Steps

variable {s : Object Value} {p : InsertionObject Value} {d : KeyedMap} {q : PlainList}

theorem KeyedMap.run_effect (op : KeyedOp)
    (distinct : Distinct op.sources.1) (l : Ledger) :
    Outcome KeyedMap.reader d (op.change op.sources.1 d.home d.entries.lookup)
      (op.tells d.entries.lookup) (KeyedMap.run op.sorted ⟨d, l⟩) := by
  cases op with
  | insertOrAssign key v =>
    exact (assign_effect key v true).answer (fun a => ⟨_, rfl, fun f same => ⟨a.1, same ▸ rfl⟩⟩)
      d l trivial
  | tryEmplace key v =>
    exact (assign_effect key v false).answer (fun a => ⟨_, rfl, fun f same => ⟨a.1, same ▸ rfl⟩⟩)
      d l trivial
  | insertOrAssignHint hint other key v =>
    exact (assign_effect key v true).answer (fun a => ⟨_, rfl, fun f _ => ⟨a.1, rfl⟩⟩) d l trivial
  | tryEmplaceHint hint other key v =>
    exact (assign_effect key v false).answer (fun a => ⟨_, rfl, fun f _ => ⟨a.1, rfl⟩⟩) d l trivial
  | erase key =>
    exact (erase_effect key).answer (fun a => ⟨_, rfl, fun f same => same ▸ rfl⟩) d l trivial
  | extend ms => exact (extend_effect ms).silent d l trivial
  | extendSortedUnique ms => exact (extend_effect ms).silent d l trivial
  | merge a b => exact (assignAll_effect distinct false).silent d l trivial
  | mergeOrUpdate a b => exact (assignAll_effect distinct true).silent d l trivial
  | mergeHint hint other a b => exact (assignAll_effect distinct false).silent d l trivial
  | mergeOrUpdateHint hint other a b => exact (assignAll_effect distinct true).silent d l trivial
  | clear => exact clear_effect.silent d l trivial

theorem PlainList.run_effect (op : KeyedOp) (valid : Distinct q.members)
    (distinct : Distinct op.sources.2)
    (promised : ∀ ms, op = .extendSortedUnique ms →
      Distinct ms ∧ ∀ m ∈ ms, m.key ∉ q.members.map Member.key) (l : Ledger) :
    Outcome PlainList.reader q (op.change op.sources.2 q.home (lookup q.members))
      (op.tells (lookup q.members)) (PlainList.run op.inserted ⟨q, l⟩) := by
  cases op with
  | insertOrAssign key v =>
    exact (append_effect key v true).answer (fun a => ⟨_, rfl, fun f same => ⟨a.1, same ▸ rfl⟩⟩)
      q l valid
  | tryEmplace key v =>
    exact (append_effect key v false).answer (fun a => ⟨_, rfl, fun f same => ⟨a.1, same ▸ rfl⟩⟩)
      q l valid
  | insertOrAssignHint hint other key v =>
    exact (splice_effect other key v true).answer (fun a => ⟨_, rfl, fun f _ => ⟨a, rfl⟩⟩)
      q l valid
  | tryEmplaceHint hint other key v =>
    exact (splice_effect other key v false).answer (fun a => ⟨_, rfl, fun f _ => ⟨a, rfl⟩⟩)
      q l valid
  | erase key =>
    exact (erase_effect key).answer (fun a => ⟨_, rfl, fun f same => same ▸ rfl⟩) q l valid
  | extend ms => exact (extend_effect ms).silent q l valid
  | extendSortedUnique ms =>
    obtain ⟨incoming, fresh⟩ := promised ms rfl
    exact (extendSortedUnique_outcome valid incoming fresh l).silent
  | merge a b => exact (appendAll_effect distinct false).silent q l valid
  | mergeOrUpdate a b => exact (appendAll_effect distinct true).silent q l valid
  | mergeHint hint other a b => exact (spliceAll_effect other distinct false).silent q l valid
  | mergeOrUpdateHint hint other a b =>
    exact (spliceAll_effect other distinct true).silent q l valid
  | clear => exact clear_effect.silent q l valid

theorem rel_or {a b v w : Option Value} (first : Option.Rel (fun v w => v.equals w = true) a b)
    (second : Option.Rel (fun v w => v.equals w = true) v w) :
    Option.Rel (fun v w => v.equals w = true) (a.or v) (b.or w) := by
  cases first with
  | some equal => exact .some equal
  | none => exact second

theorem rel_housedIn {v w : Option Value} (same : Option.Rel (fun v w => v.equals w = true) v w)
    (home other : Home) :
    Option.Rel (fun v w => v.equals w = true) (v.map (·.housedIn home))
      (w.map (·.housedIn other)) := by
  cases same with
  | some equal => exact .some ((Value.equals_housedIn home other _ _).trans equal)
  | none => exact .none

theorem Agree.adding {f g : String → Option Value} (agree : Agree f g)
    {ms ns : List (Member Value)} (sources : Agree (lookup ms) (lookup ns)) (overwrite : Bool)
    (home other : Home) : Agree (adding overwrite ms home f) (adding overwrite ns other g) := by
  intro key
  have new := rel_housedIn (sources key) home other
  cases overwrite with
  | false => exact rel_or (agree key) new
  | true => exact rel_or new (agree key)

theorem Agree.removing {f g : String → Option Value} (agree : Agree f g) (key : String)
    (home other : Home) : Agree (removing key home f) (removing key other g) := by
  intro k
  unfold DocTree.removing
  split
  · exact .none
  · exact agree k

theorem KeyedOp.agree_change (op : KeyedOp) {f g : String → Option Value} (agree : Agree f g)
    (sources : Agree (lookup op.sources.1) (lookup op.sources.2)) (home other : Home) :
    Agree (op.change op.sources.1 home f) (op.change op.sources.2 other g) := by
  have same : ∀ ms : List (Member Value), Agree (lookup ms) (lookup ms) := fun ms =>
    agree_of_equalMembers (Value.equalMembers_self ms)
  cases op with
  | insertOrAssign key v => exact agree.adding (same _) true home other
  | tryEmplace key v => exact agree.adding (same _) false home other
  | insertOrAssignHint _ _ key v => exact agree.adding (same _) true home other
  | tryEmplaceHint _ _ key v => exact agree.adding (same _) false home other
  | erase key => exact agree.removing key home other
  | extend ms => exact agree.adding (same ms) false home other
  | extendSortedUnique ms => exact agree.adding (same ms) false home other
  | merge a b => exact agree.adding sources false home other
  | mergeOrUpdate a b => exact agree.adding sources true home other
  | mergeHint _ _ a b => exact agree.adding sources false home other
  | mergeOrUpdateHint _ _ a b => exact agree.adding sources true home other
  | clear => exact fun _ => .none

theorem KeyedOp.same_answer (op : KeyedOp) {f g : String → Option Value} (agree : Agree f g)
    {a b : Answer} (told : op.tells f a) (other : op.tells g b) : SameAnswer a b := by
  cases op with
  | insertOrAssign key v | tryEmplace key v =>
    obtain ⟨pos, rfl⟩ := told
    obtain ⟨pos', rfl⟩ := other
    have flags : (f key).isNone = (g key).isNone := by
      rw [← Option.not_isSome, ← Option.not_isSome, agree.isSome]
    rw [flags]
    exact .placed pos pos' _
  | insertOrAssignHint _ _ key v | tryEmplaceHint _ _ key v =>
    obtain ⟨pos, rfl⟩ := told
    obtain ⟨pos', rfl⟩ := other
    exact .position pos pos'
  | erase key =>
    obtain rfl : a = _ := told
    obtain rfl : b = _ := other
    exact .value? (agree key)
  | _ =>
    obtain rfl : a = _ := told
    obtain rfl : b = _ := other
    exact .nothing

theorem Object.run_outcome (ordered : s.Ordered) (op : KeyedOp) (promised : op.Promise s)
    (l : Ledger) :
    Outcome reader s (op.change op.sources.1 s.home (lookup s.members))
      (op.tells (lookup s.members)) (op.sorted.run ⟨s, l⟩) := by
  have asked : op.sorted.Promise s := by
    cases op with
    | extendSortedUnique ms => exact promised
    | _ => trivial
  have distinct : Distinct op.sources.1 := by
    cases op with
    | merge a b | mergeOrUpdate a b | mergeHint _ _ a b | mergeOrUpdateHint _ _ a b =>
      exact promised.ordered.distinct
    | _ => exact List.nodup_nil
  have lists := ordered.lists
  have outcome := KeyedMap.run_effect op distinct l (d := ⟨s.home, Entries.addAllNew ∅ s.members⟩)
  rw [← funext lists.lookup] at outcome
  exact outcome.transfer (fun x y match' => ⟨match'.ordered, match'.home, match'.lookup⟩) lists
    (run_alike op.sorted s _ l lists asked)

theorem InsertionObject.run_outcome (paired : Paired s p) (op : KeyedOp)
    (promised : op.Promise s) (l : Ledger) :
    Outcome reader p (op.change op.sources.2 p.home (lookup p.members))
      (op.tells (lookup p.members)) (op.inserted.run ⟨p, l⟩) := by
  have fresh : ∀ ms, op = .extendSortedUnique ms →
      AscendingBy Member.key ms ∧ ∀ m ∈ ms, m.key ∉ p.members.map Member.key := by
    rintro ms rfl
    refine ⟨promised.1, fun m member present => promised.2 m member ?_⟩
    rw [← lookup_isSome_iff, paired.agree.isSome]
    exact (lookup_isSome_iff p.members m.key).mpr present
  have asked : op.inserted.Promise p := by
    cases op with
    | extendSortedUnique ms => exact fresh ms rfl
    | _ => trivial
  have distinct : Distinct op.sources.2 := by
    cases op with
    | merge a b | mergeOrUpdate a b | mergeHint _ _ a b | mergeOrUpdateHint _ _ a b =>
      exact promised.indexed.distinct
    | _ => exact List.nodup_nil
  have views : Views p p.plain := ⟨paired.indexed, rfl⟩
  have outcome := PlainList.run_effect (q := p.plain) op paired.indexed.distinct distinct
    (fun ms same => ⟨(fresh ms same).1.distinct, (fresh ms same).2⟩) l
  refine outcome.transfer ?_ views (run_alike op.inserted p p.plain l views asked)
  rintro x _ ⟨sound, rfl⟩
  exact ⟨sound, rfl, fun _ => rfl⟩

theorem Paired.step (paired : Paired s p) (op : KeyedOp) (promised : op.Promise s)
    (l m : Ledger) : Joint Paired s p (op.sorted.run ⟨s, l⟩) (op.inserted.run ⟨p, m⟩) := by
  have sources : Agree (lookup op.sources.1) (lookup op.sources.2) := by
    cases op with
    | merge a b | mergeOrUpdate a b | mergeHint _ _ a b | mergeOrUpdateHint _ _ a b =>
      exact promised.agree
    | _ => exact fun _ => .none
  have agree := op.agree_change paired.agree sources s.home p.home
  have first := Object.run_outcome paired.ordered op promised l
  have second := InsertionObject.run_outcome paired op promised m
  generalize op.sorted.run ⟨s, l⟩ = result at first ⊢
  generalize op.inserted.run ⟨p, m⟩ = other at second ⊢
  cases first with
  | exhausted away => exact .exhausted away
  | ok ordered _ values told =>
    cases second with
    | exhausted away => exact .otherExhausted away
    | ok indexed _ values' told' =>
      refine .ok (op.same_answer paired.agree told told') ⟨ordered, indexed, ?_⟩
      rwa [← funext values, ← funext values'] at agree

theorem Joint.imp {R S : Object Value → InsertionObject Value → Prop}
    (weaker : ∀ x y, R x y → S x y)
    {r : EStateM.Result Failure (Scene (Object Value)) Answer}
    {q : EStateM.Result Failure (Scene (InsertionObject Value)) Answer}
    (joint : Joint R s p r q) : Joint S s p r q := by
  cases joint with
  | ok same matched => exact .ok same (weaker _ _ matched)
  | exhausted away => exact .exhausted away
  | otherExhausted away => exact .otherExhausted away

end Steps

def sampleSorted : Object Value := { members := [⟨"a", .null⟩, ⟨"c", .emptyObject⟩] }

def sampleInserted : InsertionObject Value where
  members := [⟨"c", .emptyObject⟩, ⟨"a", .null⟩]
  index := [1, 0]

/-- The hints differ, and the objects take each other's first members up again. -/
def sampleKeyedTurns : List KeyedTurn :=
  [⟨.insertOrAssignHint 7 0 "b" .null, [], []⟩,
    ⟨.erase "a", [], []⟩,
    ⟨.mergeOrUpdateHint 2 1 sampleSorted sampleInserted, [], []⟩]

theorem sample_equalSources : EqualSources sampleSorted sampleInserted where
  ordered := by
    unfold Object.Ordered AscendingBy
    decide
  indexed := by
    refine ⟨by decide, ?_⟩
    unfold AscendingBy
    decide
  equal := by decide

/-- Objects of either kind that start with equal members stay in step. -/
theorem backends_in_step (turns : List KeyedTurn) (s : Object Value) (p : InsertionObject Value)
    (start : EqualSources s p) : InStep turns s p := by
  -- Equality of the members is too weak to carry along: a step needs them well formed as well.
  have paired : Paired s p := ⟨start.ordered, start.indexed, start.agree⟩
  clear start
  induction turns generalizing s p with
  | nil => exact paired.twins
  | cons turn turns ih =>
    refine ⟨paired.twins, fun promised => ?_⟩
    exact (paired.step turn.op promised turn.ledger turn.other).imp fun x y => ih x y

theorem backends_in_step_sample :
    EqualSources sampleSorted sampleInserted ∧
      InStep sampleKeyedTurns sampleSorted sampleInserted :=
  ⟨sample_equalSources, backends_in_step _ _ _ sample_equalSources⟩

end DocTree
