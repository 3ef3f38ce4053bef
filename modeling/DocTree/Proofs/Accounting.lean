import DocTree.Proofs.KeptValues
import DocTree.Value.Convert

/-!
The accounts of arenas along runs. A call may fail, and what it was charged until then stays.
-/

namespace DocTree

abbrev Anything : Home → Value → Prop := fun _ _ => True

theorem Anything.lasting : Lasting Anything where
  housed _ := trivial
  freed _ := trivial
  shrunk _ := trivial

theorem Anything.layered : Layered Anything (Carries Anything) where
  toLasting := lasting
  toEditable := Object.editable lasting
  leaf _ _ := trivial
  null _ := trivial
  withTag _ _ := trivial
  resolve _ := trivial
  promote _ := trivial
  items _ _ _ := trivial
  withItems _ _ := trivial
  empty := ⟨rfl, nofun⟩
  values held := held.2
  object _ := ⟨rfl, fun _ _ => trivial⟩
  withMembers _ _ := trivial

theorem Anything.runAt (path : List Step) {node : NodeOp} (stays : node.Stays) (home : Home) :
    Keeps (Anything home) (fun _ => True) (node.runAt path) :=
  node.runAt_keeps layered path stays (fun _ _ _ => trivial) (.inr fun _ _ _ => trivial) home

theorem InsertionObject.toValue_forward (o : InsertionObject Value) : Forward o.toValue :=
  .bind (.bind (.adoptMembersIn o.home o.members) fun _ => .pure _) fun _ => .pure _

def ledgerLeft {σ α : Type} (r : EStateM.Result Failure (Scene σ) α) : Ledger :=
  (stateLeft r).ledger

namespace Ledger

/-- Some run leads from one ledger to another. -/
inductive Reaches : Ledger → Ledger → Prop
  | nothing (l : Ledger) : Reaches l l
  | further {l m k : Ledger} : Reaches l m → Reaches m k → Reaches l k
  | copy (n bytes : Nat) (l : Ledger) : Reaches l (stateLeft (copyTo n bytes l))
  | text (home : Home) (s : String) (l : Ledger) : Reaches l (stateLeft (Value.textIn home s l))
  | bytes (home : Home) (b : List UInt8) (l : Ledger) :
      Reaches l (stateLeft (Value.bytesIn home b l))
  | adopted (home : Home) (v : Value) (l : Ledger) : Reaches l (stateLeft (v.adoptIn home l))
  | built (origin : ObjectOrigin) (l : Ledger) :
      Reaches l (stateLeft (origin.build (O := Object Value) l))
  | builtInsertion (origin : ObjectOrigin) (l : Ledger) :
      Reaches l (stateLeft (origin.build (O := InsertionObject Value) l))
  | converted (o : InsertionObject Value) (l : Ledger) : Reaches l (stateLeft (o.toValue l))
  | value (op : ValueOp) (v : Value) (l : Ledger) : Reaches l (ledgerLeft (op.run ⟨v, l⟩))
  | sequence (op : SequenceOp) (s : Sequence Value) (l : Ledger) :
      Reaches l (ledgerLeft (op.run ⟨s, l⟩))
  | object (op : ObjectOp (Object Value)) (o : Object Value) (l : Ledger) :
      Reaches l (ledgerLeft (op.run ⟨o, l⟩))
  | insertionObject (op : ObjectOp (InsertionObject Value)) (o : InsertionObject Value)
      (l : Ledger) : Reaches l (ledgerLeft (op.run ⟨o, l⟩))
  | entered (path : List Step) (node : NodeOp) (v : Value) (l : Ledger) : node.Stays →
      Reaches l (ledgerLeft (node.runAt path ⟨v, l⟩))
  | written (path : List Step) (op : ValueOp) (v : Value) (l : Ledger) :
      Reaches l (ledgerLeft (Value.editSlots path op.run ⟨v, l⟩))
  | inSequence (pos : Nat) (path : List Step) (node : NodeOp) (s : Sequence Value) (l : Ledger) :
      node.Stays → Reaches l (ledgerLeft (Sequence.editAt pos (node.runAt path) ⟨s, l⟩))
  | inObject (pos : Nat) (path : List Step) (node : NodeOp) (o : Object Value) (l : Ledger) :
      node.Stays → Reaches l (ledgerLeft (Object.editAt pos (node.runAt path) ⟨o, l⟩))
  | inInsertionObject (pos : Nat) (path : List Step) (node : NodeOp) (o : InsertionObject Value)
      (l : Ledger) :
      node.Stays → Reaches l (ledgerLeft (InsertionObject.editAt pos (node.runAt path) ⟨o, l⟩))
  | emplaced (v : Value) (path : List Step) (node : NodeOp) (s : Sequence Value) (l : Ledger) :
      node.Stays → Reaches l (ledgerLeft (Sequence.emplaceBack v (node.runAt path) ⟨s, l⟩))
  /-- Making a value may itself take any calls. -/
  | resizedWith (n : Nat) (make : Nat → Charging Value) (s : Sequence Value) (l : Ledger) :
      (∀ i m, Reaches m (stateLeft (make i m))) →
      Reaches l (ledgerLeft (Sequence.resizeWith n make ⟨s, l⟩))

variable {l m k : Ledger}

theorem Reaches.precedes (reaches : l.Reaches m) : l.Precedes m := by
  -- Whatever keeps a property moves the accounts forward, so one that always holds will do.
  have items (s : Sequence Value) : s.Holds Anything s.home := ⟨rfl, fun _ _ => trivial⟩
  have members (o : Object Value) : Carries Anything o.home o := ⟨rfl, fun _ _ => trivial⟩
  have entries (o : InsertionObject Value) : Carries Anything o.home o :=
    ⟨rfl, fun _ _ => trivial⟩
  induction reaches with
  | nothing l => exact .refl l
  | further _ _ first second => exact first.trans second
  | copy n bytes l => exact Forward.copyTo n bytes l
  | text home s l => exact Forward.textIn home s l
  | bytes home b l => exact Forward.bytesIn home b l
  | adopted home v l => exact Forward.adoptIn home v l
  | built origin l => exact Object.build_forward origin l
  | builtInsertion origin l => exact InsertionObject.build_forward origin l
  | converted o l => exact o.toValue_forward l
  | value op v l =>
    exact (op.run_keeps Anything.layered (fun _ _ => trivial) (.inr fun _ _ _ => trivial) .heap v l
      trivial).forward
  | sequence op s l =>
    exact (op.run_keeps Anything.lasting (fun _ _ => trivial) (.inr fun _ _ => trivial) s l
      (items s)).forward
  | object op o l =>
    exact (op.run_carries (Object.passing Anything.lasting) (fun _ _ => trivial)
      (.inr fun _ _ => trivial) (members o) l).forward
  | insertionObject op o l =>
    exact (op.run_carries (InsertionObject.passing Anything.lasting) (fun _ _ => trivial)
      (.inr fun _ _ => trivial) (entries o) l).forward
  | entered path node v l stays => exact (Anything.runAt path stays .heap v l trivial).forward
  | written path op v l =>
    have each (home : Home) := op.run_keeps Anything.layered (fun _ _ => trivial)
      (.inr fun _ _ _ => trivial) home
    exact (Value.editSlots_keeps Anything.layered (fun _ _ => id) path each .heap v l
      trivial).forward
  | inSequence pos path node s l stays =>
    exact (Sequence.editAt_keeps pos (Anything.runAt path stays _) s l (items s)).forward
  | inObject pos path node o l stays =>
    exact (Object.editAt_keeps (Object.editValue?_carries pos (Anything.runAt path stays _)) o l
      (members o)).forward
  | inInsertionObject pos path node o l stays =>
    exact (InsertionObject.editAt_keeps (InsertionObject.editValue?_carries pos
      (Anything.runAt path stays _)) o l (entries o)).forward
  | emplaced v path node s l stays =>
    exact (Sequence.emplaceBack_keeps Anything.lasting trivial (Anything.runAt path stays _) s l
      (items s)).forward
  | resizedWith n make s l _ forward =>
    exact (Sequence.resizeWith_keeps Anything.lasting n forward (fun _ _ _ _ _ => trivial) s l
      (items s)).forward

def Unused (l : Ledger) : Prop := ∀ n, (l.account n).used = 0

/-- With so many bytes more, an account would be over its limit or beyond what a word counts. -/
def Exceeded (l : Ledger) (n bytes : Nat) : Prop :=
  0 < bytes ∧ (byteLimit ≤ (l.account n).used + bytes ∨
    ∃ limit, (l.account n).limit = some limit ∧ limit < (l.account n).used + bytes)

theorem exceeded_iff {n bytes : Nat} :
    l.Exceeded n bytes ↔ (l.account n).admits bytes = false := by
  rw [Account.refuses_iff]
  unfold Exceeded Account.Sound Account.charge
  simp only [not_and_or, Nat.not_lt, not_forall, Nat.not_le, exists_prop]

theorem Reaches.sound (unused : l.Unused) (reaches : l.Reaches m) (n : Nat) :
    (m.account n).Sound :=
  (reaches.precedes n).sound (Account.sound_of_unused (unused n))

end Ledger

section Copying

variable {σ : Type} {x : σ} {n bytes : Nat} {l : Ledger} {f : Failure} {s : Scene σ}

theorem orRefused_copyTo_error (failed : Edit.orRefused (copyTo n bytes) ⟨x, l⟩ = .error f s) :
    l.Exceeded n bytes ∧ f = .error (.refused bytes) ∧ s = ⟨x, l⟩ := by
  obtain ⟨r, refused, -, -⟩ := orRefused_error failed
  have full := Ledger.exceeded_iff.mpr (copyTo_error refused).1
  exact ⟨full, orRefused_untouched failed fun r m refused => (copyTo_error refused).2⟩

theorem orRefused_copyTo_of_exceeded (exceeded : l.Exceeded n bytes) :
    Edit.orRefused (copyTo n bytes) ⟨x, l⟩ = .error (.error (.refused bytes)) ⟨x, l⟩ := by
  unfold Edit.orRefused Edit.charge
  rw [copyTo_refuses (Ledger.exceeded_iff.mp exceeded)]
  rfl

end Copying

theorem Value.adoptIn_charges {home : Home} {v w : Value} {l m : Ledger}
    (adopted : v.adoptIn home l = .ok w m) (n : Nat) :
    (m.account n).used =
      (l.account n).used + if home = .arena n then (v.payloads n).sum else 0 := by
  cases home with
  | heap =>
    cases adopted
    rfl
  | arena k =>
    have charged := (adopt_charges adopted).2
    by_cases here : k = n
    · subst here
      rw [charged.here, if_pos rfl]
      rfl
    · rw [charged.elsewhere (Ne.symm here), if_neg (by simpa only [Home.arena.injEq] using here)]
      rfl

/-- From the first call on, an account never shrinks, its limit never moves, and it stays within
it. A copy fails only if it is not empty and would lead an account out of its bounds; then it
reports the size and changes nothing. What adoption charges is the payloads outside the arena, and
only that arena is charged. -/
theorem arena_accounting :
    (∀ l m k : Ledger, l.Unused → l.Reaches m → m.Reaches k → ∀ n,
      (k.account n).limit = (l.account n).limit ∧
      (m.account n).used ≤ (k.account n).used ∧
      ∀ limit, (k.account n).limit = some limit → (k.account n).used ≤ limit) ∧
    (∀ {σ : Type} (x : σ) (n bytes : Nat) (l : Ledger),
      ((∃ f s, Edit.orRefused (copyTo n bytes) ⟨x, l⟩ = .error f s) ↔ l.Exceeded n bytes) ∧
      ∀ f s, Edit.orRefused (copyTo n bytes) ⟨x, l⟩ = .error f s →
        f = .error (.refused bytes) ∧ s = ⟨x, l⟩) ∧
    (∀ (home : Home) (v w : Value) (l m : Ledger), v.adoptIn home l = .ok w m → ∀ n,
      (m.account n).used =
        (l.account n).used + if home = .arena n then (v.payloads n).sum else 0) := by
  refine ⟨?_, ?_, ?_⟩
  · intro l m k unused before after n
    refine ⟨((before.further after).precedes n).limit, (after.precedes n).used, ?_⟩
    exact ((before.further after).sound unused n).2
  · intro σ x n bytes l
    constructor
    · constructor
      · rintro ⟨f, s, failed⟩
        exact (orRefused_copyTo_error failed).1
      · exact fun exceeded => ⟨_, _, orRefused_copyTo_of_exceeded exceeded⟩
    · exact fun f s failed => (orRefused_copyTo_error failed).2
  · exact fun home v w l m => Value.adoptIn_charges

def sampleLimits : Ledger := [{ limit := some 40 }, {}]

def sampleFilled : EStateM.Result Failure (Scene (Sequence Value)) Answer :=
  (SequenceOp.push (.ofText "a text of its own")).run ⟨.empty (.arena 0), sampleLimits⟩

def sampleTexts : Value :=
  .list [.ofText "a text of its own", .ofText "inline", .constRef (.ofText "a text of another")]

theorem arena_accounting_sample :
    ((ledgerLeft sampleFilled).account 0).used ≤ 40 ∧
    (∃ f s, Edit.orRefused (copyTo 0 24) ⟨(), ledgerLeft sampleFilled⟩ = .error f s) ∧
    (∃ w m, sampleTexts.adoptIn (.arena 0) sampleLimits = .ok w m ∧ (m.account 0).used = 17) := by
  have unused : sampleLimits.Unused := by
    rintro (_ | _ | n) <;> rfl
  have filled : sampleLimits.Reaches (ledgerLeft sampleFilled) := .sequence _ _ _
  refine ⟨?_, ?_, ?_⟩
  · have within := (arena_accounting.1 _ _ _ unused (.nothing _) filled 0).2.2
    exact within 40 (by decide +kernel)
  · refine (arena_accounting.2.1 () 0 24 (ledgerLeft sampleFilled)).1.mpr ⟨by decide, .inr ?_⟩
    exact ⟨40, by decide +kernel, by decide +kernel⟩
  · refine ⟨_, _, rfl, ?_⟩
    have charged := arena_accounting.2.2 (.arena 0) sampleTexts _ sampleLimits _ rfl 0
    rw [charged]
    decide +kernel

end DocTree
