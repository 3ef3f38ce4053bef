import DocTree.Proofs.BulkInsertion
import DocTree.Proofs.Endings
import DocTree.Proofs.MapEquality
import DocTree.Proofs.Split

namespace DocTree

variable {α β : Type}

namespace Split

/-- A source member that is stored is adopted first; one that is passed over costs nothing. -/
def receive (overwrite : Bool) (m : Member Value) : Edit Split Unit := do
  let s ← Edit.subject
  if overwrite = true ∨ m.key ∉ s.keys then
    let v ← Edit.orExhausted (m.value.adoptIn s.home)
    Edit.put (s.step overwrite ⟨m.key, v⟩)
  else
    Edit.put (s.step overwrite m)

def receiveAll (overwrite : Bool) (source : List (Member Value)) : Edit Split Unit :=
  source.forM (receive overwrite)

section Process

variable {R : PlainList → Split → Prop} {A : α → β → Prop} {s : Split}

theorem splice_bind (s : Split) (key : String) (v : Value) (overwrite : Bool)
    (rest : Nat → Edit PlainList α) (l : Ledger) :
    ((InsertionObject.nextPlace s.left.length <$>
        PlainList.splice s.left.length key v overwrite) >>= rest) ⟨s.plain, l⟩ =
      (PlainList.place s.left.length key v overwrite >>= fun placed =>
        rest (InsertionObject.nextPlace s.left.length placed.1)) ⟨s.plain, l⟩ := by
  have inside : min s.left.length s.plain.members.length = s.left.length := by
    simp [plain, members]
  simp only [PlainList.splice, map_eq_pure_bind, bind_assoc, pure_bind]
  rw [subject_bind, inside]

/-- Splicing a member in at the running position against letting it meet the two parts. Whatever is
done from the next position on goes with what is done to the parts that are left. -/
theorem splice_alike_receive (distinct : Distinct s.members) (m : Member Value) (overwrite : Bool)
    {rest : Nat → Edit PlainList α} {others : Edit Split β}
    (next : ∀ s' : Split, Distinct s'.members → ∀ l,
      Alike R A (rest s'.left.length ⟨s'.plain, l⟩) (others ⟨s', l⟩))
    (stands : R s.plain s) (l : Ledger) :
    Alike R A
      (((InsertionObject.nextPlace s.left.length <$>
        PlainList.splice s.left.length m.key m.value overwrite) >>= rest) ⟨s.plain, l⟩)
      ((receive overwrite m >>= fun _ => others) ⟨s, l⟩) := by
  rw [splice_bind]
  unfold PlainList.place receive
  rw [bind_assoc, bind_assoc, subject_bind, subject_bind]
  dsimp only
  cases found : s.plain.position? m.key with
  | some pos =>
    have here : s.keys[pos]? = some m.key := (distinct.findIdx?_eq_some_iff m.key pos).mp found
    have known : m.key ∈ s.keys := List.mem_of_getElem? here
    cases overwrite with
    | false =>
      have same : (s.step false m).plain = s.plain := by
        rw [plain, home_step, step, if_neg Bool.false_ne_true, members_meet_of_known known, plain]
      have onward := next (s.step false m) (s.distinct_step m false distinct) l
      rw [length_left_step, same, ← nextPlace_of_known s m distinct here] at onward
      rw [if_neg (by simp [known])]
      exact onward
    | true =>
      rw [if_pos (.inl rfl)]
      simp only [if_true, bind_assoc]
      refine Alike.charge stands fun v l' _ => ?_
      have own : s.keys[pos]? = some (Member.mk m.key v).key := here
      have onward := next (s.step true ⟨m.key, v⟩) (s.distinct_step _ true distinct) l'
      rw [length_left_step, plain_step_of_known s _ distinct own,
        ← nextPlace_of_known s _ distinct own] at onward
      exact onward
  | none =>
    have fresh := (findIdx?_eq_none_iff_unknown s.members m.key).mp found
    rw [if_pos (.inr fresh)]
    simp only [bind_assoc]
    refine Alike.charge stands fun v l' _ => ?_
    have own : (Member.mk m.key v).key ∉ s.keys := fresh
    have onward := next (s.step overwrite ⟨m.key, v⟩) (s.distinct_step _ overwrite distinct) l'
    rw [length_left_step, plain_step_of_unknown s _ overwrite own, meet_of_unknown own] at onward
    have moved : InsertionObject.nextPlace s.left.length s.left.length =
        (s.left ++ [Member.mk m.key v]).length := by
      simp [InsertionObject.nextPlace]
    rw [← moved] at onward
    exact onward

def Joins (p : PlainList) (s : Split) : Prop := p = s.plain ∧ Distinct s.members

theorem foldlM_alike_receiveAll (overwrite : Bool) (source : List (Member Value))
    (distinct : Distinct s.members) (l : Ledger) :
    Alike Joins (fun _ _ => True)
      (source.foldlM (fun pos m => InsertionObject.nextPlace pos <$>
        PlainList.splice pos m.key m.value overwrite) s.left.length ⟨s.plain, l⟩)
      (receiveAll overwrite source ⟨s, l⟩) := by
  induction source generalizing s l with
  | nil => exact .ok trivial ⟨rfl, distinct⟩
  | cons m source ih =>
    rw [List.foldlM_cons]
    apply splice_alike_receive distinct m overwrite
    · intro s' distinct l
      exact ih distinct l
    · exact ⟨rfl, distinct⟩

theorem spliceAll_alike_receiveAll (overwrite : Bool) (source : List (Member Value))
    {o : InsertionObject Value} (distinct : Distinct o.members) (hint : Nat) (l : Ledger) :
    Alike Joins Eq (PlainList.spliceAll hint source overwrite ⟨o.plain, l⟩)
      (receiveAll overwrite source ⟨cut o hint, l⟩) := by
  have whole : (cut o hint).members = o.members := List.take_append_drop _ _
  have start : (cut o hint).left.length = min hint o.members.length := by
    simp [cut]
  have loop := foldlM_alike_receiveAll (s := cut o hint) overwrite source (whole ▸ distinct) l
  rw [start, plain, whole] at loop
  exact loop.mapLeft _ fun _ _ _ => rfl

end Process

theorem receive_ends (overwrite : Bool) (s : Split) (m : Member Value) (l : Ledger) :
    Ends (s.home ≠ .heap) (fun t => t = s.step overwrite ⟨m.key, m.value.housedIn s.home⟩)
      (receive overwrite m ⟨s, l⟩) := by
  unfold receive
  rw [subject_bind]
  dsimp only
  split
  · exact Ends.charge (adoptIn_gives s.home m.value) fun l' => .ok rfl
  · rename_i passed
    obtain ⟨rfl, known⟩ : overwrite = false ∧ m.key ∈ s.keys := by simpa using passed
    exact .ok (meet_of_known known _)

theorem receiveAll_ends (overwrite : Bool) (s : Split) (source : List (Member Value)) (l : Ledger) :
    Ends (s.home ≠ .heap) (fun t => t = s.run overwrite (housedAll s.home source))
      (receiveAll overwrite source ⟨s, l⟩) := by
  induction source generalizing s l with
  | nil => exact .ok rfl
  | cons m source ih =>
    apply (receive_ends overwrite s m l).bind
    rintro _ t k rfl
    have rest := ih (s.step overwrite ⟨m.key, m.value.housedIn s.home⟩) k
    rw [home_step] at rest
    exact rest

end Split

namespace PlainList

structure Shuffled (p q : PlainList) : Prop where
  home : p.home = q.home
  perm : p.members.Perm q.members
  distinct : Distinct p.members

theorem Shuffled.also {p q : PlainList} (shuffled : Shuffled p q) : Distinct q.members :=
  (shuffled.perm.map Member.key).nodup_iff.mp shuffled.distinct

theorem Shuffled.assigned {p q : PlainList} (shuffled : Shuffled p q) {m : Member Value}
    {i j : Nat} (here : (p.members.map Member.key)[i]? = some m.key)
    (there : (q.members.map Member.key)[j]? = some m.key) :
    Shuffled { p with members := p.members.set i m } { q with members := q.members.set j m } := by
  rw [shuffled.distinct.set_eq_map here, shuffled.also.set_eq_map there]
  refine ⟨shuffled.home, shuffled.perm.map _, ?_⟩
  rw [Distinct, map_key_overwritten]
  exact shuffled.distinct

theorem Shuffled.inserted {p q : PlainList} (shuffled : Shuffled p q) {m : Member Value}
    (fresh : m.key ∉ p.members.map Member.key) (i j : Nat) :
    Shuffled { p with members := p.members.take i ++ m :: p.members.drop i }
      { q with members := q.members.take j ++ m :: q.members.drop j } := by
  have aside (i : Nat) (ms : List (Member Value)) :
      (ms.take i ++ m :: ms.drop i).Perm (m :: ms) := by
    apply List.perm_middle.trans
    rw [List.take_append_drop]
  have perm := (aside i p.members).trans ((shuffled.perm.cons m).trans (aside j q.members).symm)
  exact ⟨shuffled.home, perm, shuffled.distinct.withMember fresh (aside i p.members)⟩

theorem place_shuffled (i j : Nat) (key : String) (v : Value) (overwrite : Bool) :
    Lockstep Shuffled (fun _ _ => True) (place i key v overwrite) (place j key v overwrite) := by
  intro p q l shuffled
  have keys := shuffled.perm.map Member.key
  obtain ⟨home, ps⟩ := p
  obtain ⟨_, qs⟩ := q
  obtain rfl : home = _ := shuffled.home
  unfold place position?
  rw [subject_bind, subject_bind]
  dsimp only
  cases found : ps.findIdx? (·.key = key) with
  | some pos =>
    have here := (shuffled.distinct.findIdx?_eq_some_iff key pos).mp found
    have known : key ∈ qs.map Member.key := keys.subset (List.mem_of_getElem? here)
    obtain ⟨other, there⟩ := List.getElem?_of_mem known
    rw [(shuffled.also.findIdx?_eq_some_iff key other).mpr there]
    cases overwrite with
    | false => exact .ok trivial shuffled
    | true =>
      exact Alike.charge shuffled fun w _ _ =>
        .ok trivial (shuffled.assigned (m := ⟨key, w⟩) here there)
  | none =>
    have fresh := (findIdx?_eq_none_iff_unknown ps key).mp found
    have also : key ∉ qs.map Member.key := fun known => fresh (keys.mem_iff.mpr known)
    rw [(findIdx?_eq_none_iff_unknown qs key).mpr also]
    exact Alike.charge shuffled fun w _ _ =>
      .ok trivial (shuffled.inserted (m := ⟨key, w⟩) fresh i j)

theorem spliceAll_shuffled (hint : Nat) (source : List (Member Value)) (overwrite : Bool) :
    Lockstep Shuffled Eq (spliceAll hint source overwrite) (appendAll source overwrite) := by
  intro p q l shuffled
  have step : ∀ pos, ∀ m ∈ source, Lockstep Shuffled (fun _ _ => True)
      (InsertionObject.nextPlace pos <$> splice pos m.key m.value overwrite)
      (discard (append m.key m.value overwrite)) := by
    intro pos m _ p q l shuffled
    have placed := place_shuffled (min pos p.members.length) q.members.length m.key m.value
      overwrite p q l shuffled
    have moved := (placed.mapLeft (C := fun _ _ => True) Prod.fst fun _ _ => id).mapLeft
      (C := fun _ _ => True) (InsertionObject.nextPlace pos) fun _ _ => id
    exact moved.mapRight (fun _ => ()) fun _ _ => id
  have loop := Lockstep.foldlM_forM step (min hint p.members.length) p q l shuffled
  exact loop.mapLeft _ fun _ _ _ => rfl

end PlainList

namespace InsertionObject

theorem Indexed.equals_of_perm {x y : InsertionObject Value} (first : x.Indexed)
    (second : y.Indexed) (perm : x.members.Perm y.members) :
    (ObjectForm.inserted x).equals (.inserted y) = true := by
  apply first.equals_of_agree second
  intro key
  rw [lookup_perm perm first.distinct key]
  exact rel_self _

structure Spliced (overwrite : Bool) (o source : InsertionObject Value) (hint : Nat)
    (x : InsertionObject Value) : Prop where
  members : x.members =
    ((Split.cut o hint).run overwrite (housedAll o.home source.members)).members
  before : (x.members.map (Split.untouched overwrite)).take (min hint o.length) =
    (o.members.map (Split.untouched overwrite)).take (min hint o.length)
  old : (o.members.map (Split.untouched overwrite)).Sublist
    (x.members.map (Split.untouched overwrite))
  new : Split.newIn (o.members.map Member.key) x.members =
    Split.newIn (o.members.map Member.key) (housedAll o.home source.members)

/-- A merge at a hint against the two parts, in whatever way it ends, and against the merge that has
no hint. -/
structure MergesSplit (overwrite : Bool) (o source : InsertionObject Value) (hint : Nat)
    (hinted plain : Edit (InsertionObject Value) Unit) (l : Ledger) : Prop where
  process : Alike (fun x s => x.home = s.home ∧ x.members = s.left ++ s.right) Eq
    (hinted ⟨o, l⟩) (Split.receiveAll overwrite source.members ⟨Split.cut o hint, l⟩)
  spliced : Ends (o.home ≠ .heap) (Spliced overwrite o source hint) (hinted ⟨o, l⟩)
  equal : Alike (fun x y => (ObjectForm.inserted x).equals (.inserted y) = true) Eq
    (hinted ⟨o, l⟩) (plain ⟨o, l⟩)

section Merging

variable {o source : InsertionObject Value} {hint : Nat}

theorem cut_members : (Split.cut o hint).members = o.members := List.take_append_drop _ _

theorem cut_continues : (Split.cut o hint).Continues (o.members.map Member.key) where
  known key isIn := by
    rw [Split.keys, cut_members]
    exact isIn
  right key isIn := List.map_subset _ (List.drop_subset _ _) isIn

theorem spliced_of_run (overwrite : Bool) (distinct : Distinct source.members)
    {x : InsertionObject Value} (members : x.members =
      ((Split.cut o hint).run overwrite (housedAll o.home source.members)).members) :
    Spliced overwrite o source hint x where
  members := members
  before := by
    have left : (Split.cut o hint).left.map (Split.untouched overwrite) =
        (o.members.map (Split.untouched overwrite)).take (min hint o.length) := List.map_take
    have grown := (Split.cut o hint).left_run_untouched overwrite (housedAll o.home source.members)
    have whole : (Split.cut o hint).left.map (Split.untouched overwrite) <+:
        x.members.map (Split.untouched overwrite) := by
      rw [members, Split.members, List.map_append]
      exact grown.trans (List.prefix_append _ _)
    have size : ((o.members.map (Split.untouched overwrite)).take (min hint o.length)).length =
        min hint o.length := by
      rw [List.length_take, List.length_map]
      exact Nat.min_eq_left (Nat.min_le_right _ _)
    rw [left] at whole
    have stays := List.prefix_iff_eq_take.mp whole
    rw [size] at stays
    exact stays.symm
  old := by
    have whole : (Split.cut o hint).members = o.members := cut_members
    rw [members, ← whole]
    exact Split.members_run_untouched overwrite _
  new := by
    have housed : Distinct (housedAll o.home source.members) := by
      rwa [Distinct, map_key_housedAll]
    have run := cut_continues.newIn_run (s := Split.cut o hint) overwrite housed fun m _ known => by
      rwa [Split.keys, cut_members] at known
    rw [members, run, cut_members, Split.newIn_of_old fun _ => id, List.nil_append]

theorem Indexed.mergesSplit (sound : o.Indexed) (distinct : Distinct source.members)
    {overwrite : Bool} {hinted plain : Edit (InsertionObject Value) Unit}
    (spliced : Lockstep Views Eq hinted (PlainList.spliceAll hint source.members overwrite))
    (appended : Lockstep Views Eq plain (PlainList.appendAll source.members overwrite))
    (l : Ledger) : MergesSplit overwrite o source hint hinted plain l := by
  have views : Views o o.plain := ⟨sound, rfl⟩
  have listed := spliced o o.plain l views
  have parts := Split.spliceAll_alike_receiveAll overwrite source.members sound.distinct hint l
  have process : Alike (fun x s => x.home = s.home ∧ x.members = s.left ++ s.right) Eq
      (hinted ⟨o, l⟩) (Split.receiveAll overwrite source.members ⟨Split.cut o hint, l⟩) := by
    apply listed.trans parts
    rintro x _ s ⟨-, same⟩ ⟨rfl, -⟩
    exact ⟨congrArg PlainList.home same, congrArg PlainList.members same⟩
  refine ⟨process, ?_, ?_⟩
  · have ends := Split.receiveAll_ends overwrite (Split.cut o hint) source.members l
    apply (process.ends ends).imp id
    rintro x ⟨_, ⟨-, members⟩, rfl⟩
    exact spliced_of_run overwrite distinct members
  · have shuffled := PlainList.spliceAll_shuffled hint source.members overwrite o.plain o.plain l
      ⟨rfl, .refl _, sound.distinct⟩
    have both : Alike (fun x q => x.Indexed ∧ x.members.Perm q.members) Eq (hinted ⟨o, l⟩)
        (PlainList.appendAll source.members overwrite ⟨o.plain, l⟩) := by
      apply listed.trans shuffled
      rintro x _ q ⟨first, rfl⟩ shuffled
      exact ⟨first, shuffled.perm⟩
    apply both.trans (appended o o.plain l views).flip
    rintro x q y ⟨first, perm⟩ ⟨second, rfl⟩
    exact first.equals_of_perm second perm

end Merging

/-- A merge at a hint needs no index and no positions to be told: it lets the source go through the
members, cut in two at the hint, with or without overwriting. Members before the hint stay where
they are, old ones keep their order, new ones come in the order of the source, and the object
equals the one that is left without a hint. -/
theorem hinted_merges_split (o source : InsertionObject Value) (built : o.Built)
    (from_built : source.Built) (hint : Nat) (l : Ledger) :
    MergesSplit false o source hint (mergeHint hint source) (merge source) l ∧
      MergesSplit true o source hint (mergeOrUpdateHint hint source) (mergeOrUpdate source) l := by
  have distinct := from_built.indexed.distinct
  constructor
  · exact built.indexed.mergesSplit distinct (mergeHint_lockstep hint source)
      (merge_lockstep source) l
  · exact built.indexed.mergesSplit distinct (mergeOrUpdateHint_lockstep hint source)
      (mergeOrUpdate_lockstep source) l

def sampleStanding : InsertionObject Value :=
  leftBy ((ObjectOp.extend [⟨"c", .null⟩, ⟨"a", .null⟩, ⟨"b", .null⟩]).run ⟨.empty .heap, []⟩)

def sampleComing : InsertionObject Value :=
  leftBy ((ObjectOp.extend [⟨"x", .null⟩, ⟨"b", .emptyObject⟩, ⟨"y", .null⟩, ⟨"c", .null⟩]).run
    ⟨.empty .heap, []⟩)

theorem sampleStanding_built : sampleStanding.Built := by
  refine .run _ [] (.empty .heap) trivial ?_
  exact List.forall_mem_cons.mpr ⟨.leaf _ _, List.forall_mem_cons.mpr ⟨.leaf _ _,
    List.forall_mem_singleton.mpr (.leaf _ _)⟩⟩

theorem sampleComing_built : sampleComing.Built := by
  refine .run _ [] (.empty .heap) trivial ?_
  exact List.forall_mem_cons.mpr ⟨.leaf _ _, List.forall_mem_cons.mpr ⟨.leaf _ _,
    List.forall_mem_cons.mpr ⟨.leaf _ _, List.forall_mem_singleton.mpr (.leaf _ _)⟩⟩⟩

theorem hinted_merges_split_sample :
    sampleStanding.Built ∧ sampleComing.Built ∧
      MergesSplit false sampleStanding sampleComing 2 (mergeHint 2 sampleComing)
        (merge sampleComing) [] ∧
      MergesSplit true sampleStanding sampleComing 2 (mergeOrUpdateHint 2 sampleComing)
        (mergeOrUpdate sampleComing) [] :=
  ⟨sampleStanding_built, sampleComing_built, hinted_merges_split sampleStanding sampleComing
    sampleStanding_built sampleComing_built 2 []⟩

end InsertionObject

end DocTree
