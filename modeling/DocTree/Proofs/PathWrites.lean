import DocTree.Proofs.Built

/-!
Writing through paths. A write enters one child after another, makes what is missing, and puts
every child back, also when it stops halfway.
-/

namespace DocTree

namespace Edit

variable {σ τ υ α : Type}

theorem leftBy_zoom (part : τ) (putBack : τ → σ) (e : Edit τ α) (x : σ) (l : Ledger) :
    leftBy (zoom part putBack e ⟨x, l⟩) = putBack (leftBy (e ⟨part, l⟩)) := by
  unfold zoom
  cases e ⟨part, l⟩ <;> rfl

theorem zoom_eq_ok_iff {part : τ} {putBack : τ → σ} {e : Edit τ α} {x : σ} {l : Ledger} {a : α}
    {s : Scene σ} : zoom part putBack e ⟨x, l⟩ = .ok a s ↔
      ∃ t, e ⟨part, l⟩ = .ok a t ∧ ⟨putBack t.subject, t.ledger⟩ = s := by
  unfold zoom
  cases e ⟨part, l⟩ <;> simp [and_assoc]

theorem zoom_eq_error_iff {part : τ} {putBack : τ → σ} {e : Edit τ α} {x : σ} {l : Ledger}
    {f : Failure} {s : Scene σ} : zoom part putBack e ⟨x, l⟩ = .error f s ↔
      ∃ t, e ⟨part, l⟩ = .error f t ∧ ⟨putBack t.subject, t.ledger⟩ = s := by
  unfold zoom
  cases e ⟨part, l⟩ <;> simp [and_assoc]

theorem zoom_of_zoom {part : τ} {inner : υ} {putBack : τ → σ} {putInner : υ → τ} {e : Edit τ α}
    {f : Edit υ α} {l : Ledger} (same : e ⟨part, l⟩ = zoom inner putInner f ⟨part, l⟩) (x : σ) :
    zoom part putBack e ⟨x, l⟩ = zoom inner (fun y => putBack (putInner y)) f ⟨x, l⟩ := by
  unfold zoom at same ⊢
  dsimp only at same ⊢
  rw [same]
  cases f ⟨inner, l⟩ <;> rfl

theorem zoom?_some_bind {g : Option α → Edit σ α} (answers : ∀ a, g (some a) = pure a) (part : τ)
    (putBack : τ → σ) (e : Edit τ α) :
    zoom? (some part) putBack e >>= g = zoom part putBack e := by
  change some <$> zoom part putBack e >>= g = _
  rw [bind_map_left]
  simp only [answers, bind_pure]

end Edit

theorem Sequence.editItem_eq_zoom {β : Type} {s : Sequence Value} {i : Nat} {v : Value}
    (here : s.items[i]? = some v) (e : Edit Value β) (l : Ledger) :
    editItem i e ⟨s, l⟩ =
      Edit.zoom v (fun w => { s with items := s.items.set i w }) e ⟨s, l⟩ := by
  unfold editItem editItem?
  rw [bind_assoc, subject_bind, here, Edit.zoom?_some_bind fun _ => rfl]

namespace Object

variable {β : Type} {o : Object Value}

/-- The object with a member for a key, which is null if it was not there. -/
def making (o : Object Value) (key : String) : Object Value :=
  let pos := o.lowerBound 0 key
  if o.keyAt? pos = some key then o else o.insertAt pos ⟨key, .null⟩

def withKey (o : Object Value) (key : String) (v : Value) : Object Value :=
  (o.making key).assignAt (o.lowerBound 0 key) v

theorem Ordered.making (ordered : o.Ordered) (key : String) : (o.making key).Ordered := by
  unfold Object.making
  dsimp only
  split
  · exact ordered
  · rename_i absent
    exact ordered.insertAt ⟨key, .null⟩ fun known =>
      absent ((ordered.keyAt?_lowerBound key).mpr known)

theorem Ordered.lookup_making (ordered : o.Ordered) {key other : String} (apart : key ≠ other) :
    lookup (o.making key).members other = lookup o.members other := by
  unfold Object.making
  dsimp only
  split
  · rfl
  · rename_i absent
    rw [ordered.lookup_insertAt ⟨key, .null⟩ fun known =>
      absent ((ordered.keyAt?_lowerBound key).mpr known)]
    exact if_neg apart

theorem Ordered.making_at (ordered : o.Ordered) (key : String) :
    (o.making key).members[o.lowerBound 0 key]? = some ⟨key, (o.get? key).getD .null⟩ := by
  unfold Object.making Object.get? Object.find?
  dsimp only
  split
  · rename_i here
    obtain ⟨m, there, rfl⟩ := Option.map_eq_some_iff.mp here
    rw [Option.bind_some, there]
    rfl
  · rw [Option.bind_none, Option.getD_none]
    exact List.getElem?_insertIdx_self.trans (if_pos (ordered.lowerBound_le_length key))

theorem Ordered.withKey (ordered : o.Ordered) (key : String) (v : Value) :
    (o.withKey key v).Ordered :=
  (ordered.making key).assignAt _ v

theorem Ordered.get?_withKey (ordered : o.Ordered) (key : String) (v : Value) (other : String) :
    (o.withKey key v).get? other = if key = other then some v else o.get? other := by
  rw [(ordered.withKey key v).get?_eq_lookup, ordered.get?_eq_lookup, Object.withKey,
    Object.assignAt,
    lookup_modify (ordered.making key).distinct (key_at_of_member (ordered.making_at key))]
  split
  · rfl
  · rename_i apart
    exact ordered.lookup_making apart

theorem tryEmplace_null (o : Object Value) (key : String) (l : Ledger) :
    ∃ isNew, tryEmplace key .null ⟨o, l⟩ = .ok (o.lowerBound 0 key, isNew) ⟨o.making key, l⟩ := by
  -- Null has no payload, so every home takes it at no cost.
  have free : Value.null.adoptIn o.home = return .null := by cases o.home <;> rfl
  unfold tryEmplace place making
  rw [subject_bind, subject_bind, free]
  dsimp only
  split
  · exact ⟨false, rfl⟩
  · exact ⟨true, rfl⟩

theorem editAt_eq_zoom {i : Nat} {m : Member Value} (here : o.members[i]? = some m)
    (e : Edit Value β) (l : Ledger) :
    editAt i e ⟨o, l⟩ = Edit.zoom m.value (o.assignAt i) e ⟨o, l⟩ := by
  unfold editAt editValue?
  rw [subject_bind, bind_assoc, subject_bind, here, Option.map_some,
    Edit.zoom?_some_bind fun _ => rfl]

theorem Ordered.make_edit (ordered : o.Ordered) (key : String) (e : Edit Value β) (l : Ledger) :
    (do
      let (pos, _) ← tryEmplace key .null
      editAt pos e : Edit (Object Value) β) ⟨o, l⟩ =
      Edit.zoom ((o.get? key).getD .null) (o.withKey key) e ⟨o, l⟩ := by
  obtain ⟨isNew, made⟩ := tryEmplace_null o key l
  rw [bind_of_ok made]
  exact editAt_eq_zoom (ordered.making_at key) e l

end Object

namespace Value

variable {β : Type} {v w : Value} {p q : Step} {path : List Step}

def ownMembers? : Value → Option (Object Value)
  | object _ o => some o
  | leaf _ .emptyObject => some {}
  | _ => none

/-- A value that a step cannot be written into. It is not enough to refer to an array or to an
object, but null may be referred to. -/
inductive Stops (v : Value) : Step → Fault → Prop
  | notArray (i : Nat) : v.ownArray? = none → Stops v (.index i) (.indexIntoKind i v.kind)
  | pastEnd (i : Nat) {s : Sequence Value} : v.ownArray? = some s → s.length ≤ i →
      Stops v (.index i) (.indexPastEnd i s.length)
  | notObject (k : String) : v.kind ≠ .null → v.ownMembers? = none →
      Stops v (.key k) (.keyIntoKind k v.kind)

/-- A path on which some step cannot be written into what the steps before lead to. Where they
lead to nothing, the walk goes on with null. -/
inductive Blocked : Value → List Step → Fault → Prop
  | here {v : Value} {p : Step} {path : List Step} {f : Fault} :
      Stops v p f → Blocked v (p :: path) f
  | beyond {v : Value} {p : Step} {path : List Step} {f : Fault} :
      (∀ g, ¬ Stops v p g) → Blocked (v.child p) path f → Blocked v (p :: path) f

section Entering

/-- What a key is looked up in for writing: null has become an object. -/
def opened (v : Value) : Value := (if v.kind = .null then emptyObject else v).promote

inductive Enters (v : Value) : Step → Prop
  | item {t : Tag} {s : Sequence Value} {i : Nat} {w : Value} :
      v = array t s → s.items[i]? = some w → Enters v (.index i)
  | members {t : Tag} {o : Object Value} (k : String) :
      v.opened = object t o → Enters v (.key k)

def putBack (v : Value) (p : Step) (w : Value) : Value :=
  match p, v.opened with
  | .index i, array t s => array t { s with items := s.items.set i w }
  | .key k, object t o => object t (o.withKey k w)
  | _, _ => v

theorem get?_of_null : ∀ {v : Value}, v.kind = .null → ∀ p, v.get? p = none
  | leaf t x, isNull, p => by
    cases x with
    | null => cases p <;> rfl
    | _ => cases isNull
  | array .., isNull, _ | object .., isNull, _ => by cases isNull
  | ref _ u, isNull, p => by
    have target := get?_of_null (v := u) isNull p
    cases p <;> exact target

theorem get?_promote (v : Value) (p : Step) : v.promote.get? p = v.get? p := by
  cases v with
  | leaf t x => cases x <;> rfl
  | _ => rfl

theorem get?_opened (v : Value) (p : Step) : v.opened.get? p = v.get? p := by
  rw [opened, get?_promote]
  split
  · rename_i isNull
    rw [get?_of_null isNull]
    cases p <;> rfl
  · rfl

theorem opened_of_null (isNull : v.kind = .null) : v.opened = object .plain {} := by
  rw [opened, if_pos isNull]
  rfl

theorem opened_of_own {o : Object Value} (own : v.ownMembers? = some o) :
    ∃ t, v.opened = object t o := by
  cases v with
  | object t o => cases own; exact ⟨t, rfl⟩
  | leaf t x =>
    cases x with
    | emptyObject => cases own; exact ⟨t, rfl⟩
    | _ => cases own
  | _ => cases own

theorem ownArray?_eq_some {s : Sequence Value} (own : v.ownArray? = some s) :
    ∃ t, v = array t s := by
  cases v with
  | array t s => cases own; exact ⟨t, rfl⟩
  | _ => cases own

theorem enters_of_free (free : ∀ f, ¬ Stops v p f) : Enters v p := by
  cases p with
  | index i =>
    cases own : v.ownArray? with
    | none => exact absurd (.notArray i own) (free _)
    | some s =>
      obtain ⟨t, same⟩ := ownArray?_eq_some own
      have inside : i < s.length := Nat.lt_of_not_le fun past => free _ (.pastEnd i own past)
      exact .item same (List.getElem?_eq_getElem inside)
  | key k =>
    by_cases isNull : v.kind = .null
    · exact .members k (opened_of_null isNull)
    · cases own : v.ownMembers? with
      | none => exact absurd (.notObject k isNull own) (free _)
      | some o =>
        obtain ⟨t, same⟩ := opened_of_own own
        exact .members k same

theorem editSlot_of_stops {f : Fault} (stops : Stops v p f) (e : Edit Value β) (l : Ledger) :
    editSlot p e ⟨v, l⟩ = .error (.fault f) ⟨v, l⟩ := by
  unfold editSlot
  rw [subject_bind]
  cases stops with
  | notArray i own =>
    cases v with
    | array t s => cases own
    | _ => rfl
  | pastEnd i own past =>
    obtain ⟨t, rfl⟩ := ownArray?_eq_some own
    dsimp only
    rw [if_pos past]
    rfl
  | notObject k notNull own =>
    dsimp only
    rw [if_neg notNull]
    cases v with
    | object t o => cases own
    | leaf t x =>
      cases x with
      | emptyObject => cases own
      | _ => rfl
    | _ => rfl

theorem WellFormed.opened (wellFormed : v.WellFormed) : v.opened.WellFormed := by
  unfold Value.opened
  split
  · exact WellFormed.promote (.leaf _ _)
  · exact wellFormed.promote

theorem WellFormed.openedObject {t : Tag} {o : Object Value} (wellFormed : v.WellFormed)
    (opens : v.opened = .object t o) : o.Ordered := by
  have whole := wellFormed.opened
  rw [opens] at whole
  cases whole
  assumption

theorem get?_key_of_opened {t : Tag} {o : Object Value} (opens : v.opened = object t o)
    (k : String) : v.get? (.key k) = o.get? k := by
  rw [← get?_opened, opens]
  rfl

theorem putBack_key {t : Tag} {o : Object Value} (opens : v.opened = object t o) (k : String)
    (w : Value) : v.putBack (.key k) w = object t (o.withKey k w) := by
  simp only [putBack, opens]

theorem editSlot_of_enters (wellFormed : v.WellFormed) (enters : Enters v p) (e : Edit Value β)
    (l : Ledger) : editSlot p e ⟨v, l⟩ = Edit.zoom (v.child p) (v.putBack p) e ⟨v, l⟩ := by
  unfold editSlot
  rw [subject_bind]
  cases enters with
  | @item t s i w same here =>
    subst same
    have inside : ¬ s.length ≤ i := Nat.not_le_of_lt (List.getElem?_eq_some_iff.mp here).1
    have child : child (array t s) (.index i) = w := congrArg (Option.getD · null) here
    dsimp only
    rw [if_neg inside, child]
    exact Edit.zoom_of_zoom (Sequence.editItem_eq_zoom here e l) (array t s)
  | @members t o k opens =>
    have child : v.child (.key k) = (o.get? k).getD null :=
      congrArg (Option.getD · null) (get?_key_of_opened opens k)
    rw [child, funext (putBack_key opens k)]
    unfold opened at opens
    dsimp only
    rw [opens]
    exact Edit.zoom_of_zoom ((wellFormed.openedObject opens).make_edit k e l) v

theorem get?_putBack (wellFormed : v.WellFormed) (enters : Enters v p) (w : Value) (q : Step) :
    (v.putBack p w).get? q = if p = q then some w else v.get? q := by
  cases enters with
  | @item t s i u same here =>
    subst same
    cases q with
    | index j =>
      have set : (putBack (array t s) (.index i) w).get? (.index j) = (s.items.set i w)[j]? := rfl
      rw [set, List.getElem?_set, if_pos (List.getElem?_eq_some_iff.mp here).1]
      simp only [Step.index.injEq]
      rfl
    | key k => rfl
  | @members t o k opens =>
    rw [putBack_key opens]
    cases q with
    | index j =>
      rw [if_neg Step.noConfusion, ← get?_opened v, opens]
      rfl
    | key other =>
      rw [get?_key_of_opened opens]
      simp only [Step.key.injEq]
      exact (wellFormed.openedObject opens).get?_withKey k w other

theorem WellFormed.get? {w : Value} (wellFormed : v.WellFormed) {p : Step}
    (found : v.get? p = some w) : w.WellFormed := by
  cases p with
  | index i =>
    obtain ⟨s, held, here⟩ := Option.bind_eq_some_iff.mp found
    exact asSequence?_wellFormed wellFormed held w (List.mem_of_getElem? here)
  | key k =>
    obtain ⟨o, held, here⟩ := Option.bind_eq_some_iff.mp found
    obtain ⟨pos, -, there⟩ := Option.bind_eq_some_iff.mp here
    obtain ⟨m, member, rfl⟩ := Option.map_eq_some_iff.mp there
    exact (asObject?_wellFormed wellFormed held).2 m (List.mem_of_getElem? member)

theorem WellFormed.child (wellFormed : v.WellFormed) (p : Step) : (v.child p).WellFormed := by
  unfold Value.child
  cases found : v.get? p with
  | none => exact .leaf _ _
  | some w => exact wellFormed.get? found

end Entering

section Laws

variable {path other : List Step} {x : Value} {l : Ledger}

theorem getPath?_child (v : Value) (p q : Step) (path : List Step) :
    (v.child p).getPath? (q :: path) = v.getPath? (p :: q :: path) := by
  unfold child
  rw [getPath?, getPath?]
  cases v.get? p with
  | some w => rfl
  -- The left side reads on from null, where there is nothing to find.
  | none => cases q <;> rfl

theorem readPath_eq_getD (v : Value) (path : List Step) :
    v.readPath path = (v.getPath? path).getD null := by
  induction path generalizing v with
  | nil => rfl
  | cons p path ih =>
    change (v.child p).readPath path = _
    rw [ih]
    cases path with
    | nil =>
      rw [getPath?, getPath?, child]
      cases v.get? p <;> rfl
    | cons q path => rw [getPath?_child]

theorem write_of_stops {f : Fault} (stops : Stops v p f) :
    write (p :: path) x ⟨v, l⟩ = .error (.fault f) ⟨v, l⟩ := editSlot_of_stops stops _ l

theorem write_of_free (wellFormed : v.WellFormed) (free : ∀ f, ¬ Stops v p f) :
    write (p :: path) x ⟨v, l⟩ = Edit.zoom (v.child p) (v.putBack p) (write path x) ⟨v, l⟩ :=
  editSlot_of_enters wellFormed (enters_of_free free) _ l

/-- The first step of a path stops the write, or the rest is written into the child. -/
theorem write_cons (wellFormed : v.WellFormed) (p : Step) (path : List Step) (x : Value)
    (l : Ledger) :
    (∃ f, Stops v p f ∧ write (p :: path) x ⟨v, l⟩ = .error (.fault f) ⟨v, l⟩) ∨
      (∀ f, ¬ Stops v p f) ∧ Enters v p ∧
        write (p :: path) x ⟨v, l⟩ = Edit.zoom (v.child p) (v.putBack p) (write path x) ⟨v, l⟩ := by
  by_cases stopped : ∃ f, Stops v p f
  · obtain ⟨f, stops⟩ := stopped
    exact .inl ⟨f, stops, write_of_stops stops⟩
  · have free := not_exists.mp stopped
    exact .inr ⟨free, enters_of_free free, write_of_free wellFormed free⟩

theorem write_eq_error_iff (wellFormed : v.WellFormed) (path : List Step) (x : Value) (l : Ledger)
    (failure : Failure) : (∃ s, write path x ⟨v, l⟩ = .error failure s) ↔
      ∃ f, failure = .fault f ∧ Blocked v path f := by
  induction path generalizing v with
  | nil =>
    constructor
    · rintro ⟨s, ⟨⟩⟩
    · rintro ⟨f, -, ⟨⟩⟩
  | cons p path ih =>
    constructor
    · rintro ⟨s, failed⟩
      obtain ⟨f, stops, result⟩ | ⟨free, -, result⟩ := write_cons wellFormed p path x l <;>
        rw [result] at failed
      · cases failed
        exact ⟨f, rfl, .here stops⟩
      · obtain ⟨t, inner, -⟩ := Edit.zoom_eq_error_iff.mp failed
        obtain ⟨f, rfl, blocked⟩ := (ih (wellFormed.child p)).mp ⟨t, inner⟩
        exact ⟨f, rfl, .beyond free blocked⟩
    · rintro ⟨f, rfl, stops | ⟨free, blocked⟩⟩
      · exact ⟨_, write_of_stops stops⟩
      · obtain ⟨t, inner⟩ := (ih (wellFormed.child p)).mpr ⟨f, rfl, blocked⟩
        rw [write_of_free wellFormed free]
        exact ⟨_, Edit.zoom_eq_error_iff.mpr ⟨t, inner, rfl⟩⟩

theorem getPath?_written (wellFormed : v.WellFormed) {s : Scene Value}
    (done : write path x ⟨v, l⟩ = .ok () s) : s.subject.getPath? path = some x := by
  induction path generalizing v s with
  | nil =>
    cases done
    rfl
  | cons p path ih =>
    obtain ⟨f, -, result⟩ | ⟨-, enters, result⟩ := write_cons wellFormed p path x l <;>
      rw [result] at done
    · cases done
    · obtain ⟨t, inner, rfl⟩ := Edit.zoom_eq_ok_iff.mp done
      have written := ih (wellFormed.child p) inner
      rw [getPath?, get?_putBack wellFormed enters, if_pos rfl]
      exact written

theorem getPath?_apart (wellFormed : v.WellFormed) (notBelow : ¬ path <+: other)
    (notAbove : ¬ other <+: path) :
    (leftBy (write path x ⟨v, l⟩)).getPath? other = v.getPath? other := by
  induction path generalizing v other with
  | nil => exact absurd List.nil_prefix notBelow
  | cons p path ih =>
    obtain ⟨f, -, result⟩ | ⟨-, enters, result⟩ := write_cons wellFormed p path x l <;>
      rw [result]
    · rfl
    · rw [Edit.leftBy_zoom]
      cases other with
      | nil => exact absurd List.nil_prefix notAbove
      | cons q other =>
        rw [getPath?, get?_putBack wellFormed enters]
        split
        · rename_i same
          subst same
          rw [List.prefix_cons_inj] at notBelow notAbove
          -- The two paths part further down, in the child that was put back.
          have rest := ih (wellFormed.child p) notBelow notAbove
          cases other with
          | nil => exact absurd List.nil_prefix notAbove
          | cons q other => exact rest.trans (getPath?_child v p q other)
        · rfl

end Laws

/-- The laws of writing `x` through a path. It stops at a blocked step and only there; else the path
reads `x` afterwards. Either way, paths that part from it read what they read before. -/
structure WriteLaws (v : Value) (path : List Step) (x : Value) (l : Ledger) : Prop where
  stops : ∀ failure, (∃ s, write path x ⟨v, l⟩ = .error failure s) ↔
    ∃ f, failure = .fault f ∧ Blocked v path f
  completes : (∃ s, write path x ⟨v, l⟩ = .ok () s) ↔ ∀ f, ¬ Blocked v path f
  written : ∀ s, write path x ⟨v, l⟩ = .ok () s →
    s.subject.readPath path = x ∧ s.subject.getPath? path = some x
  frame : ∀ other, ¬ path <+: other → ¬ other <+: path →
    (leftBy (write path x ⟨v, l⟩)).readPath other = v.readPath other ∧
      (leftBy (write path x ⟨v, l⟩)).getPath? other = v.getPath? other
  reads : ∀ (w : Value) other, w.readPath other = (w.getPath? other).getD null

theorem write_lawful (v : Value) (built : v.Built) (path : List Step) (x : Value) (l : Ledger) :
    WriteLaws v path x l := by
  have fails := write_eq_error_iff built.wellFormed path x l
  refine ⟨fails, ⟨?_, fun free => ?_⟩, fun s done => ?_, fun other notBelow notAbove => ?_,
    readPath_eq_getD⟩
  · rintro ⟨s, done⟩ f blocked
    obtain ⟨t, failed⟩ := (fails _).mpr ⟨f, rfl, blocked⟩
    rw [done] at failed
    cases failed
  · cases result : write path x ⟨v, l⟩ with
    | ok _ s => exact ⟨s, rfl⟩
    | error failure s =>
      obtain ⟨f, -, blocked⟩ := (fails failure).mp ⟨s, result⟩
      exact absurd blocked (free f)
  · have found := getPath?_written built.wellFormed done
    rw [readPath_eq_getD, found]
    exact ⟨rfl, rfl⟩
  · have same := getPath?_apart (x := x) (l := l) built.wellFormed notBelow notAbove
    rw [readPath_eq_getD, readPath_eq_getD, same]
    exact ⟨rfl, rfl⟩

def sampleRow : Value := ofSequence (.ofList [null, emptyObject])

theorem sampleRow_built : sampleRow.Built :=
  .array _ (.filled (List.forall_mem_cons.mpr
    ⟨.leaf _ _, List.forall_mem_singleton.mpr (.leaf _ _)⟩))

theorem write_lawful_sample :
    sampleRow.Built ∧ WriteLaws sampleRow [.index 0, .key "a", .key "b"] (ofBool true) [] ∧
      WriteLaws sampleRow [.index 1, .key "a", .index 0] (ofBool true) [] :=
  ⟨sampleRow_built, write_lawful sampleRow sampleRow_built _ _ [],
    write_lawful sampleRow sampleRow_built _ _ []⟩

end Value

end DocTree
