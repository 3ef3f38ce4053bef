import DocTree.Proofs.MergeAlgebra
import DocTree.Proofs.PathWrites

namespace DocTree

/-- It reports no error. It may still stop with a fault or run out of arena. -/
def Silent {σ β : Type} (e : Edit σ β) : Prop := ∀ s err t, e s ≠ .error (.error err) t

namespace Silent

variable {σ τ α β : Type}

theorem of_exhausting {e : Edit σ β} (exhausting : Exhausting e) : Silent e := by
  intro s err t failed
  obtain ⟨bytes, other⟩ := exhausting _ _ _ failed
  cases other

theorem pure (a : α) : Silent (Pure.pure a : Edit σ α) := of_exhausting (.pure a)

theorem update (f : σ → σ) : Silent (Edit.update f) := nofun

theorem fault (f : Fault) : Silent (Edit.fault f : Edit σ α) := nofun

theorem orExhausted (c : Charging α) : Silent (Edit.orExhausted c : Edit σ α) := by
  intro s err t failed
  unfold Edit.orExhausted Edit.charge at failed
  split at failed
  · cases failed
  · rename_i refusal l _
    cases refusal <;> cases failed

theorem bind {e : Edit σ α} {g : α → Edit σ β} (first : Silent e) (next : ∀ a, Silent (g a)) :
    Silent (e >>= g) := by
  intro s err t failed
  rcases bind_eq_error failed with now | ⟨a, u, -, later⟩
  · exact first _ _ _ now
  · exact next a _ _ _ later

theorem subject_bind {g : σ → Edit σ β} (next : ∀ x, Silent (g x)) : Silent (Edit.subject >>= g) :=
  fun s => next s.subject s

theorem map {e : Edit σ α} (silent : Silent e) (f : α → β) : Silent (f <$> e) :=
  silent.bind fun a => pure (f a)

theorem discard {e : Edit σ α} (silent : Silent e) : Silent (discard e) := silent.map fun _ => ()

theorem zoom {e : Edit τ α} (silent : Silent e) (part : τ) (putBack : τ → σ) :
    Silent (Edit.zoom part putBack e) := by
  intro s err t failed
  unfold Edit.zoom at failed
  cases edited : e ⟨part, s.ledger⟩ with
  | ok a u => simp [edited] at failed
  | error f u =>
    simp only [edited, EStateM.Result.error.injEq] at failed
    exact silent _ _ _ (failed.1 ▸ edited)

end Silent

namespace Sequence

theorem push_silent (v : Value) : Silent (push v) :=
  .subject_bind fun _ => .bind (.orExhausted _) fun _ => .update _

theorem insert_silent (pos : Nat) (v : Value) : Silent (insert pos v) := by
  refine .subject_bind fun _ => .bind (.orExhausted _) fun held => .subject_bind fun s => ?_
  have rest : Silent (do setItems (s.items.insertIdx pos held); return pos) :=
    .bind (.update _) fun _ => .pure _
  dsimp only
  split
  · exact .bind (.fault _) fun _ => rest
  · exact rest

theorem erase_silent (pos : Nat) : Silent (erase pos) := by
  refine .subject_bind fun s => ?_
  split
  · exact .bind (.update _) fun _ => .pure _
  · exact .fault _

theorem resize_silent (n : Nat) (v : Value) : Silent (resize n v) :=
  .subject_bind fun _ => .bind (.orExhausted _) fun _ => .bind (.orExhausted _) fun _ =>
    .subject_bind fun _ => .update _

theorem editAt_eq_zoom {β : Type} {s : Sequence Value} {i : Nat} {w : Value}
    (here : s.items[i]? = some w) (e : Edit Value β) (l : Ledger) :
    editAt i e ⟨s, l⟩ =
      Edit.zoom w (fun w => { s with items := s.items.set i w }) e ⟨s, l⟩ := by
  unfold editAt editItem?
  rw [subject_bind, bind_assoc, subject_bind, here, Edit.zoom?_some_bind fun _ => rfl]

theorem editAt_missing {β : Type} {s : Sequence Value} {i : Nat} (missing : s.items[i]? = none)
    (e : Edit Value β) (l : Ledger) :
    editAt i e ⟨s, l⟩ = .error (.error (.outOfRange i s.length)) ⟨s, l⟩ := by
  unfold editAt editItem?
  rw [subject_bind, bind_assoc, subject_bind, missing]
  rfl

end Sequence

theorem Object.erase_silent (key : String) : Silent (erase key) := by
  refine .subject_bind fun o => ?_
  split
  · refine .bind (.subject_bind fun o => ?_) fun _ => .pure _
    split
    · exact .bind (.update _) fun _ => .pure _
    · exact .fault _
  · exact .pure _

namespace Value

variable {β : Type} {v : Value} {op : Edit Value β} {misused : Value → Error → Prop}
  {does : Value → Edit Value β → Prop}

/-- An operation that reports an error exactly when it is misused, with nothing changed then, and
that otherwise does what it is said to do. -/
structure AllOrNothing (op : Edit Value β) (misused : Value → Error → Prop)
    (does : Value → Edit Value β → Prop) : Prop where
  refused : ∀ v l err t, op ⟨v, l⟩ = .error (.error err) t ↔ misused v err ∧ t = ⟨v, l⟩
  effect : ∀ v l, (∀ err, ¬ misused v err) → ∃ e, does v e ∧ op ⟨v, l⟩ = e ⟨v, l⟩

theorem AllOrNothing.of_cases
    (each : ∀ v,
      (∃ err, (∀ other, misused v other ↔ other = err) ∧
        ∀ l, op ⟨v, l⟩ = .error (.error err) ⟨v, l⟩) ∨
      (∀ err, ¬ misused v err) ∧ ∃ e, does v e ∧ ∀ l, op ⟨v, l⟩ = e ⟨v, l⟩ ∧
        ∀ err t, e ⟨v, l⟩ ≠ .error (.error err) t) :
    AllOrNothing op misused does where
  refused v l err t := by
    rcases each v with ⟨err', only, stops⟩ | ⟨fine, e, -, runs⟩
    · rw [stops, only]
      constructor
      · rintro ⟨⟩
        exact ⟨rfl, rfl⟩
      · rintro ⟨rfl, rfl⟩
        rfl
    · rw [(runs l).1]
      exact ⟨fun failed => absurd failed ((runs l).2 err t), fun ⟨bad, _⟩ => absurd bad (fine err)⟩
  effect v l fine := by
    rcases each v with ⟨err, only, -⟩ | ⟨-, e, doing, runs⟩
    · exact absurd ((only err).mpr rfl) (fine err)
    · exact ⟨e, doing, (runs l).1⟩

def NotArray (v : Value) (err : Error) : Prop := v.storage ≠ .array ∧ err = .notArray

def NotObject (v : Value) (err : Error) : Prop := ¬ v.HoldsObject ∧ err = .notObject

def NoPlace (unsuited : Nat → Prop) (pos : Nat) (v : Value) (err : Error) : Prop :=
  v.NotArray err ∨ v.storage = .array ∧ unsuited v.length ∧ err = .outOfRange pos v.length

def NoPosition (pos : Nat) (v : Value) (err : Error) : Prop :=
  v.storage ≠ .array ∧ ¬ v.HoldsObject ∧ err = .notArray ∨
    (v.storage = .array ∨ v.HoldsObject) ∧ v.length ≤ pos ∧ err = .outOfRange pos v.length

def NotObjects (source : Value) (v : Value) (err : Error) : Prop :=
  (source.asObject? = none ∨ ¬ v.HoldsObject) ∧ err = .notObject

def AsArray (e : Edit (Sequence Value) β) (v : Value) (whole : Edit Value β) : Prop :=
  ∃ s, v.ownArray? = some s ∧ whole = Edit.zoom s (array v.tag) e

def AsObject (e : Edit (Object Value) β) (v : Value) (whole : Edit Value β) : Prop :=
  ∃ o, v.ownMembers? = some o ∧ whole = Edit.zoom o (object v.tag) e

/-- The edit of the object in a value, but the empty object stays what it is where the edit would
find nothing to do. -/
def AsObjectIfAny (e : Edit (Object Value) β) (v : Value) (whole : Edit Value β) : Prop :=
  v.storage = .object ∧ AsObject e v whole ∨
    v.storage = .emptyObject ∧ ∃ x, whole = pure x ∧ ∀ l, e ⟨{}, l⟩ = .ok x ⟨{}, l⟩

theorem ownArray?_eq_none : v.ownArray? = none ↔ v.storage ≠ .array := by
  cases v with
  | leaf t x =>
    refine iff_of_true rfl ?_
    cases x with
    | text n s =>
      rw [storage, Leaf.storage]
      split <;> decide
    | _ => simp [storage, Leaf.storage]
  | _ => simp [ownArray?, storage]

theorem ownMembers?_eq_none : v.ownMembers? = none ↔ ¬ v.HoldsObject := by
  constructor
  · intro none holds
    obtain ⟨t, o, rfl⟩ | ⟨t, rfl⟩ := holds.forms <;> cases none
  · intro other
    cases own : v.ownMembers? with
    | none => rfl
    | some o =>
      refine absurd ?_ other
      cases v with
      | object t o => exact .inl rfl
      | leaf t x =>
        cases x with
        | emptyObject => exact .inr rfl
        | _ => cases own
      | _ => cases own

theorem onArray_of_none (none : v.ownArray? = none) (e : Edit (Sequence Value) β) (l : Ledger) :
    onArray e ⟨v, l⟩ = .error (.error .notArray) ⟨v, l⟩ := by
  cases v with
  | array t s => cases none
  | _ => rfl

theorem onObject_of_none (none : v.ownMembers? = none) (e : Edit (Object Value) β) (l : Ledger) :
    onObject e ⟨v, l⟩ = .error (.error .notObject) ⟨v, l⟩ := by
  cases v with
  | object t o => cases none
  | leaf t x =>
    cases x with
    | emptyObject => cases none
    | _ => rfl
  | _ => rfl

theorem onObject_of_some {o : Object Value} (own : v.ownMembers? = some o)
    (e : Edit (Object Value) β) : AsObject e v (Edit.zoom o (object v.tag) e) ∧
      ∀ l, onObject e ⟨v, l⟩ = Edit.zoom o (object v.tag) e ⟨v, l⟩ := by
  refine ⟨⟨o, own, rfl⟩, fun l => ?_⟩
  cases v with
  | object t o => cases own; rfl
  | leaf t x =>
    cases x with
    | emptyObject => cases own; rfl
    | _ => cases own
  | _ => cases own

theorem onArray_checked (unsuited : Nat → Prop) [DecidablePred unsuited] (pos : Nat)
    {e : Edit (Sequence Value) β} (silent : Silent e) :
    AllOrNothing
      (onArray do
        let s ← Edit.subject
        if unsuited s.length then Edit.fail (.outOfRange pos s.length)
        e)
      (NoPlace unsuited pos) (AsArray e) := by
  refine .of_cases fun v => ?_
  cases own : v.ownArray? with
  | none =>
    have other := ownArray?_eq_none.mp own
    refine .inl ⟨.notArray, fun err => ?_, onArray_of_none own _⟩
    exact ⟨fun bad => bad.elim And.right fun past => absurd past.1 other,
      fun is => .inl ⟨other, is⟩⟩
  | some s =>
    obtain ⟨t, rfl⟩ := ownArray?_eq_some own
    cases own
    have isArray : ∀ err, ¬ (array t s).NotArray err := fun err other => other.1 rfl
    by_cases past : unsuited s.length
    · refine .inl ⟨.outOfRange pos s.length, fun err => ?_, fun l => ?_⟩
      · exact ⟨fun bad => bad.elim (absurd · (isArray err)) fun place => place.2.2,
          fun is => .inr ⟨rfl, past, is⟩⟩
      · change Edit.zoom s (array t) _ ⟨array t s, l⟩ = _
        unfold Edit.zoom
        rw [subject_bind]
        dsimp only
        rw [if_pos past]
        rfl
    · refine .inr ⟨fun err bad => bad.elim (isArray err) fun place => past place.2.1,
        _, ⟨s, rfl, rfl⟩, fun l => ⟨?_, silent.zoom _ _ _⟩⟩
      change Edit.zoom s (array t) _ ⟨array t s, l⟩ = _
      unfold Edit.zoom
      rw [subject_bind]
      dsimp only
      rw [if_neg past]
      rfl

theorem onArray_allOrNothing {e : Edit (Sequence Value) β} (silent : Silent e) :
    AllOrNothing (onArray e) NotArray (AsArray e) := by
  refine .of_cases fun v => ?_
  cases own : v.ownArray? with
  | none =>
    have other := ownArray?_eq_none.mp own
    exact .inl ⟨.notArray, fun err => and_iff_right other, onArray_of_none own e⟩
  | some s =>
    obtain ⟨t, rfl⟩ := ownArray?_eq_some own
    cases own
    exact .inr ⟨fun err bad => bad.1 rfl, _, ⟨s, rfl, rfl⟩, fun l => ⟨rfl, silent.zoom _ _ _⟩⟩

theorem onObject_allOrNothing {e : Edit (Object Value) β} (silent : Silent e) :
    AllOrNothing (onObject e) NotObject (AsObject e) := by
  refine .of_cases fun v => ?_
  cases own : v.ownMembers? with
  | none =>
    have other := ownMembers?_eq_none.mp own
    exact .inl ⟨.notObject, fun err => and_iff_right other, onObject_of_none own e⟩
  | some o =>
    have holds : v.HoldsObject := by
      by_contra other
      rw [ownMembers?_eq_none.mpr other] at own
      cases own
    obtain ⟨doing, runs⟩ := onObject_of_some own e
    exact .inr ⟨fun err bad => bad.1 holds, _, doing, fun l => ⟨runs l, silent.zoom _ _ _⟩⟩

theorem toObject_eq (source : Value) :
    source.toObject = match source.asObject? with
      | some o => .ok o
      | none => .error .notObject := by
  unfold toObject asObject?
  obtain ⟨t, x, target⟩ | ⟨t, s, target⟩ | ⟨t, o, target⟩ := source.resolve_cases <;> rw [target]
  cases x <;> rfl

theorem merge_allOrNothing {through : Object Value → Edit (Object Value) Unit}
    (silent : ∀ o, Silent (through o)) (source : Value) :
    AllOrNothing
      (match source.toObject with
        | .ok o => onObject (through o)
        | .error err => Edit.fail err)
      source.NotObjects
      fun v whole => ∃ o, source.asObject? = some o ∧ AsObject (through o) v whole := by
  rw [toObject_eq]
  cases coming : source.asObject? with
  | none =>
    refine .of_cases fun v => .inl ⟨.notObject, fun err => ?_, fun l => rfl⟩
    exact and_iff_right (.inl coming)
  | some o =>
    have into := onObject_allOrNothing (silent o)
    have only : ∀ v err, source.NotObjects v err ↔ v.NotObject err := by
      intro v err
      refine and_congr_left fun _ => or_iff_right ?_
      rw [coming]
      nofun
    refine ⟨fun v l err t => (into.refused v l err t).trans (and_congr_left' (only v err).symm), ?_⟩
    intro v l fine
    obtain ⟨e, doing, runs⟩ := into.effect v l fun err bad => fine err ((only v err).mpr bad)
    exact ⟨e, ⟨o, rfl, doing⟩, runs⟩

theorem insert_allOrNothing (pos : Nat) (x : Value) :
    AllOrNothing (insert pos x) (NoPlace (· < pos) pos)
      (AsArray (discard (Sequence.insert pos x))) :=
  onArray_checked (· < pos) pos (Sequence.insert_silent pos x).discard

theorem erase_allOrNothing (pos : Nat) :
    AllOrNothing (erase pos) (NoPlace (· ≤ pos) pos) (AsArray (Sequence.erase pos)) :=
  onArray_checked (· ≤ pos) pos (Sequence.erase_silent pos)

theorem eraseKey_allOrNothing (key : String) :
    AllOrNothing (eraseKey key) NotObject (AsObjectIfAny (Object.erase key)) := by
  refine .of_cases fun v => ?_
  cases own : v.ownMembers? with
  | none =>
    have other := ownMembers?_eq_none.mp own
    refine .inl ⟨.notObject, fun err => and_iff_right other, fun l => ?_⟩
    unfold eraseKey
    rw [subject_bind]
    dsimp only
    split
    · cases own
    · cases own
    · rfl
  | some o =>
    cases v with
    | object t o =>
      cases own
      refine .inr ⟨fun err bad => bad.1 (.inl rfl), _, .inl ⟨rfl, o, rfl, rfl⟩, fun l => ⟨rfl, ?_⟩⟩
      exact (Object.erase_silent key).zoom _ _ _
    | leaf t x =>
      cases x with
      | emptyObject =>
        have unknown : ({} : Object Value).find? key = none := by
          simp [Object.find?, Object.keyAt?]
        have nothing : ∀ l, Object.erase key ⟨{}, l⟩ = .ok none ⟨{}, l⟩ := by
          intro l
          unfold Object.erase
          rw [subject_bind]
          dsimp only
          rw [unknown]
          rfl
        exact .inr ⟨fun err bad => bad.1 (.inr rfl), _, .inr ⟨rfl, none, rfl, nothing⟩,
          fun l => ⟨rfl, Silent.pure none _⟩⟩
      | _ => cases own
    | _ => cases own

theorem noPosition_of_neither {pos : Nat} (noArray : v.storage ≠ .array)
    (noObject : ¬ v.HoldsObject) (err : Error) : v.NoPosition pos err ↔ err = .notArray :=
  ⟨fun bad => bad.elim (fun other => other.2.2) fun there => absurd there.1 (by tauto),
    fun is => .inl ⟨noArray, noObject, is⟩⟩

theorem noPosition_iff (pos : Nat) (container : v.storage = .array ∨ v.HoldsObject)
    (err : Error) : v.NoPosition pos err ↔ v.length ≤ pos ∧ err = .outOfRange pos v.length :=
  ⟨fun bad => bad.elim (fun other => absurd container (by tauto)) And.right,
    fun is => .inr ⟨container, is⟩⟩

theorem editAt_allOrNothing (pos : Nat) {e : Edit Value β} (silent : Silent e) :
    AllOrNothing (editAt pos e) (NoPosition pos)
      fun v whole => AsArray (Sequence.editAt pos e) v whole ∨
        v.storage = .object ∧ AsObject (Object.editAt pos e) v whole := by
  refine .of_cases fun v => ?_
  cases v with
  | array t s =>
    have known := noPosition_iff (v := array t s) pos (.inl rfl)
    cases here : s.items[pos]? with
    | none =>
      refine .inl ⟨_, fun err => (known err).trans (and_iff_right ?_), fun l => ?_⟩
      · exact List.getElem?_eq_none_iff.mp here
      · exact Edit.zoom_eq_error_iff.mpr ⟨_, Sequence.editAt_missing here e l, rfl⟩
    | some w =>
      have before : pos < s.length := (List.getElem?_eq_some_iff.mp here).1
      refine .inr ⟨fun err bad => ?_, _, .inl ⟨s, rfl, rfl⟩, fun l => ⟨rfl, ?_⟩⟩
      · exact absurd before (Nat.not_lt.mpr ((known err).mp bad).1)
      · rw [Edit.zoom_of_zoom (Sequence.editAt_eq_zoom here e l)]
        exact silent.zoom _ _ _
  | object t o =>
    have known := noPosition_iff (v := object t o) pos (.inr (.inl rfl))
    cases here : o.members[pos]? with
    | none =>
      refine .inl ⟨_, fun err => (known err).trans (and_iff_right ?_), fun l => ?_⟩
      · exact List.getElem?_eq_none_iff.mp here
      · exact Edit.zoom_eq_error_iff.mpr ⟨_, Object.editAt_missing here e l, rfl⟩
    | some m =>
      have before : pos < o.length := (List.getElem?_eq_some_iff.mp here).1
      refine .inr ⟨fun err bad => ?_, _, .inr ⟨rfl, o, rfl, rfl⟩, fun l => ⟨rfl, ?_⟩⟩
      · exact absurd before (Nat.not_lt.mpr ((known err).mp bad).1)
      · rw [Edit.zoom_of_zoom (Object.editAt_eq_zoom here e l)]
        exact silent.zoom _ _ _
  | leaf t x =>
    have noArray : (leaf t x).storage ≠ .array := ownArray?_eq_none.mp rfl
    cases x with
    | emptyObject =>
      have known := noPosition_iff (v := leaf t .emptyObject) pos (.inr (.inr rfl))
      exact .inl ⟨_, fun err => (known err).trans (and_iff_right (Nat.zero_le pos)), fun l => rfl⟩
    | _ =>
      exact .inl ⟨_, noPosition_of_neither noArray (ownMembers?_eq_none.mp rfl), fun l => rfl⟩
  | ref t w =>
    have noArray : (ref t w).storage ≠ .array := ownArray?_eq_none.mp rfl
    exact .inl ⟨_, noPosition_of_neither noArray (ownMembers?_eq_none.mp rfl), fun l => rfl⟩

/-- Each of these operations on a value either is refused with everything unchanged or is the
edit of the array or object in it. It is refused for the kind of the value, for a source that is
no object and for a position out of range, and for nothing else. -/
theorem edits_are_all_or_nothing (pos n : Nat) (key : String) (x : Value) :
    AllOrNothing (push x) NotArray (AsArray (Sequence.push x)) ∧
      AllOrNothing (insert pos x) (NoPlace (· < pos) pos)
        (AsArray (discard (Sequence.insert pos x))) ∧
      AllOrNothing (erase pos) (NoPlace (· ≤ pos) pos) (AsArray (Sequence.erase pos)) ∧
      AllOrNothing (resize n x) NotArray (AsArray (Sequence.resize n x)) ∧
      AllOrNothing (insertOrAssign key x) NotObject
        (AsObject (Prod.snd <$> Object.insertOrAssign key x)) ∧
      AllOrNothing (tryEmplace key x) NotObject
        (AsObject (Prod.snd <$> Object.tryEmplace key x)) ∧
      AllOrNothing (eraseKey key) NotObject (AsObjectIfAny (Object.erase key)) ∧
      AllOrNothing (merge x) x.NotObjects
        (fun v whole => ∃ o, x.asObject? = some o ∧ AsObject (Object.merge o) v whole) ∧
      AllOrNothing (mergeOrUpdate x) x.NotObjects
        (fun v whole => ∃ o, x.asObject? = some o ∧ AsObject (Object.mergeOrUpdate o) v whole) ∧
      ∀ {β : Type} (e : Edit Value β), Silent e →
        AllOrNothing (editAt pos e) (NoPosition pos) fun v whole =>
          AsArray (Sequence.editAt pos e) v whole ∨
            v.storage = .object ∧ AsObject (Object.editAt pos e) v whole := by
  refine ⟨?_, insert_allOrNothing pos x, erase_allOrNothing pos, ?_, ?_, ?_,
    eraseKey_allOrNothing key, ?_, ?_, fun e => editAt_allOrNothing pos⟩
  · exact onArray_allOrNothing (Sequence.push_silent x)
  · exact onArray_allOrNothing (Sequence.resize_silent n x)
  · exact onObject_allOrNothing (.of_exhausting ((Object.insertOrAssign_exhausting key x).map _))
  · exact onObject_allOrNothing (.of_exhausting ((Object.tryEmplace_exhausting key x).map _))
  · exact merge_allOrNothing (fun o => .of_exhausting (Object.merge_exhausting o)) x
  · exact merge_allOrNothing (fun o => .of_exhausting (Object.mergeOrUpdate_exhausting o)) x

theorem edits_are_all_or_nothing_sample :
    Silent (Value.assign .null) ∧ Value.emptyObject.NoPosition 0 (.outOfRange 0 0) ∧
      Value.editAt 0 (Value.assign .null) ⟨.emptyObject, []⟩ =
        .error (.error (.outOfRange 0 0)) ⟨.emptyObject, []⟩ := by
  have silent : Silent (Value.assign .null) := nofun
  have past : Value.emptyObject.NoPosition 0 (.outOfRange 0 0) :=
    .inr ⟨.inr (.inr rfl), Nat.le_refl 0, rfl⟩
  obtain ⟨-, -, -, -, -, -, -, -, -, at0⟩ := edits_are_all_or_nothing 0 0 "" .null
  exact ⟨silent, past, ((at0 _ silent).refused _ _ _ _).mpr ⟨past, rfl⟩⟩

end Value

end DocTree
