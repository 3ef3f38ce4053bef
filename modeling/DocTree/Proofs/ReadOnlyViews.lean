import DocTree.Proofs.PathWrites
import DocTree.Proofs.Promotion

namespace DocTree

/-- Puts something else in the place of the whole value, or another tag on it. -/
def ValueOp.Replaces : ValueOp → Prop
  | take | assign _ | setTag _ | setTextIn .. | trySetTextIn .. | trySetBytesIn .. => True
  | _ => False

/-- A result that says nothing was done: an error, a fault or an empty answer, and the scene is
as it was. -/
inductive Idle (s : Scene Value) : EStateM.Result Failure (Scene Value) (Option Answer) → Prop
  | error (err : Error) : Idle s (.error (.error err) s)
  | fault (f : Fault) : Idle s (.error (.fault f) s)
  | missing : Idle s (.ok none s)
  | nothing : Idle s (.ok (some .nothing) s)

theorem Idle.left {s : Scene Value} {r : EStateM.Result Failure (Scene Value) (Option Answer)}
    (idle : Idle s r) : leftBy r = s.subject := by
  cases idle <;> rfl

def Way.MakesMember : Way → Prop
  | make (.key _) => True
  | _ => False

namespace Visit

/-- Whatever it does, it does to a part or to a container, not to the value as a whole. -/
def Inward (visit : Visit) : Prop := visit.ways ≠ [] ∨ ¬ visit.op.Replaces

def MakesMember (visit : Visit) : Prop := ∃ way ∈ visit.ways.head?, way.MakesMember

end Visit

namespace Value

variable {t : Tag} {w : Value}

theorem run_ref {op : ValueOp} (keeps : ¬ op.Replaces) (l : Ledger) :
    Idle ⟨ref t w, l⟩ ((some <$> op.run) ⟨ref t w, l⟩) := by
  cases op with
  | push | insert | erase | resize | assignAt => exact .error .notArray
  | insertOrAssign | tryEmplace | eraseKey => exact .error .notObject
  | merge source =>
    rw [ValueOp.run, Value.merge]
    cases source.toObject with
    | ok o => exact .error .notObject
    | error err => exact .error err
  | mergeOrUpdate source =>
    rw [ValueOp.run, Value.mergeOrUpdate]
    cases source.toObject with
    | ok o => exact .error .notObject
    | error err => exact .error err
  | reserve | clear | shrinkToFit => exact .nothing
  | _ => exact absurd trivial keeps

theorem editAlong_ref (way : Way) (ways : List Way) (e : Edit Value Answer)
    (allowed : w.kind = .null → ¬ way.MakesMember) (l : Ledger) :
    Idle ⟨ref t w, l⟩ (editAlong (way :: ways) e ⟨ref t w, l⟩) := by
  cases way with
  | enter p => cases p <;> exact .missing
  | entry i => exact .error .notArray
  | make p =>
    have stops : ∃ f, (ref t w).Stops p f := by
      cases p with
      | index i => exact ⟨_, .notArray i rfl⟩
      | key k => exact ⟨_, .notObject k (fun isNull => allowed isNull trivial) rfl⟩
    obtain ⟨f, stops⟩ := stops
    rw [editAlong, editSlot_of_stops stops]
    exact .fault f

/-- A reference to null is null to a member that is written into it. -/
theorem editSlot_ref_null {β : Type} (isNull : w.kind = .null) (k : String) (e : Edit Value β)
    (l : Ledger) : editSlot (.key k) e ⟨ref t w, l⟩ = editSlot (.key k) e ⟨null, l⟩ := by
  have sameKind : (ref t w).kind = .null := isNull
  have nullKind : null.kind = .null := rfl
  unfold editSlot
  rw [subject_bind, subject_bind]
  dsimp only
  rw [if_pos sameKind, if_pos nullKind]
  rfl

end Value

namespace Visit

variable {t : Tag} {w : Value}

theorem run_ref {visit : Visit} (inward : visit.Inward)
    (allowed : w.kind = .null → ¬ visit.MakesMember) (l : Ledger) :
    Idle ⟨.ref t w, l⟩ (visit.run ⟨.ref t w, l⟩) := by
  obtain ⟨ways, op⟩ := visit
  cases ways with
  | nil => exact Value.run_ref (inward.resolve_left (absurd rfl)) l
  | cons way ways =>
    refine Value.editAlong_ref way ways op.run (fun isNull makes => ?_) l
    exact allowed isNull ⟨way, rfl, makes⟩

theorem trace_ref {turns : List (Ledger × Visit)} (inward : ∀ turn ∈ turns, turn.2.Inward)
    (allowed : w.kind = .null → ∀ turn ∈ turns, ¬ turn.2.MakesMember) :
    List.Forall₂ (fun turn r => Idle ⟨.ref t w, turn.1⟩ r) turns (trace turns (.ref t w)) := by
  induction turns with
  | nil => exact .nil
  | cons turn turns ih =>
    obtain ⟨l, visit⟩ := turn
    have idle : Idle ⟨.ref t w, l⟩ (visit.run ⟨.ref t w, l⟩) :=
      run_ref (inward _ List.mem_cons_self) (fun isNull => allowed isNull _ List.mem_cons_self) l
    refine .cons idle ?_
    -- The visit leaves the reference to those after it.
    rw [idle.left]
    exact ih (fun turn isIn => inward turn (List.mem_cons_of_mem _ isIn))
      fun isNull turn isIn => allowed isNull turn (List.mem_cons_of_mem _ isIn)

end Visit

/-- Whatever enters a reference, or changes the container that a value is, leaves the reference as
it is and does nothing else. References to null are no exception, but for members written into
them: then they give way to an object, as null does. -/
theorem references_are_read_only (t : Tag) (w : Value) :
    (∀ turns : List (Ledger × Visit), (∀ turn ∈ turns, turn.2.Inward) →
      (w.kind = .null → ∀ turn ∈ turns, ¬ turn.2.MakesMember) →
      List.Forall₂ (fun turn r => Idle ⟨.ref t w, turn.1⟩ r) turns
        (Visit.trace turns (.ref t w))) ∧
    (∀ (way : Way) (ways : List Way) (e : Edit Value Answer) (l : Ledger),
      (w.kind = .null → ¬ way.MakesMember) →
      Idle ⟨.ref t w, l⟩ (Value.editAlong (way :: ways) e ⟨.ref t w, l⟩)) ∧
    (Value.ref t w).ownArray? = none ∧
    (∀ l, Value.ownObject ⟨.ref t w, l⟩ = .ok none ⟨.ref t w, l⟩) ∧
    (∀ key, (Value.ref t w).findOwn? key = none) ∧
    (w.kind = .null → ∀ (k : String) (path : List Step) (e : Edit Value Unit) (l : Ledger),
      Value.editSlots (.key k :: path) e ⟨.ref t w, l⟩ =
        Value.editSlots (.key k :: path) e ⟨.null, l⟩) := by
  refine ⟨fun _ => Visit.trace_ref, fun way ways e l allowed => ?_, rfl, fun _ => rfl, fun _ => rfl,
    fun isNull k path e => Value.editSlot_ref_null isNull k _⟩
  exact Value.editAlong_ref way ways e allowed l

def sampleVisits : List (Ledger × Visit) :=
  [([], ⟨[.make (.key "k")], .assign .null⟩), ([], ⟨[], .push .null⟩)]

theorem references_are_read_only_sample :
    List.Forall₂ (fun turn r => Idle ⟨.ref .plain .emptyObject, turn.1⟩ r) sampleVisits
      (Visit.trace sampleVisits (.ref .plain .emptyObject)) := by
  have inward : ∀ turn ∈ sampleVisits, turn.2.Inward := by
    rintro turn (_ | ⟨_, _ | ⟨_, ⟨⟩⟩⟩)
    · exact .inl (List.cons_ne_nil _ _)
    · exact .inr id
  exact (references_are_read_only .plain .emptyObject).1 sampleVisits inward nofun

def sampleView : Value := Value.null.constRef.withTag .uri

/-- Writing a member into it leaves an object of its own in its place, without the tag. -/
theorem view_of_null_gives_way :
    sampleView.Built ∧ sampleView.storage = .reference ∧ sampleView.tag = .uri ∧
      ∃ u, Value.write [.key "k"] (.ofInt64 1) ⟨sampleView, []⟩ = .ok () ⟨u, []⟩ ∧
        u.storage = .object ∧ u.tag = .plain ∧ u.get? (.key "k") = some (.ofInt64 1) := by
  have built : sampleView.Built := .withTag _ (.constRef (.leaf _ _))
  have enters : sampleView.Enters (.key "k") := .members "k" (Value.opened_of_null rfl)
  have given := Object.Ordered.get?_withKey (o := {}) .nil "k" (.ofInt64 1) "k"
  refine ⟨built, rfl, rfl, sampleView.putBack (.key "k") (.ofInt64 1), ?_, rfl, rfl, ?_⟩
  · change Value.editSlot (.key "k") (Value.assign (.ofInt64 1)) ⟨sampleView, []⟩ = _
    rw [Value.editSlot_of_enters built.wellFormed enters]
    rfl
  · exact given.trans (if_pos rfl)

end DocTree
