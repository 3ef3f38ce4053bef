import DocTree.InsertionObject.Edit
import DocTree.Proofs.Copies
import DocTree.Sequence.Edit
import DocTree.Value.Edit

namespace DocTree

variable {σ α : Type}

namespace Value

theorem housed_payloads (n : Nat) (v : Value) : (v.housed n).payloads n = [] := by
  cases v with
  | leaf t x =>
    cases x with
    | text home s =>
      simp only [housed, Leaf.housed]
      split
      · rename_i here
        simp only [payloads, Leaf.payloads, here, if_true]
      · simp only [payloads, Leaf.payloads, decide_true, Bool.or_true, if_true]
    | _ => simp only [housed, Leaf.housed, payloads, Leaf.payloads, Object.empty, if_true]
  | array t s =>
    simp only [housed]
    split
    · rename_i here
      simp only [payloads, here, if_true]
    · simp only [payloads, if_true]
  | object t o =>
    simp only [housed]
    split
    · rename_i here
      simp only [payloads, here, if_true]
    · simp only [payloads, if_true]
  | ref t v => rfl

theorem adoptIn_again {home : Home} {v w : Value} {l m : Ledger}
    (adopted : v.adoptIn home l = .ok w m) : ∃ u, w.adoptIn home = return u := by
  cases home with
  | heap => exact ⟨w, rfl⟩
  | arena n =>
    refine ⟨w.housed n, ?_⟩
    change w.adopt n = _
    rw [adopt_eq, adopt_ok adopted, housed_payloads]
    rfl

end Value

/-- A refusal that leaves the target alone. The payloads in front of the refused one were copied
and stay charged, so that whatever fitted beside them before still fits. -/
def Refused (n : Nat) (sizes : List Nat) (s : Scene σ) (f : Failure) (t : Scene σ) : Prop :=
  t.subject = s.subject ∧ ∃ copied bytes rest, sizes = copied ++ bytes :: rest ∧
    f = .error (.refused bytes) ∧ Stopped s.ledger n copied bytes t.ledger ∧
    ∀ more, (s.ledger.account n).admits (copied.sum + more) = true →
      (t.ledger.account n).admits more = true

theorem Stopped.admits {l m : Ledger} {n refused more : Nat} {copied : List Nat}
    (stopped : Stopped l n copied refused m)
    (fits : (l.account n).admits (copied.sum + more) = true) :
    (m.account n).admits more = true := by
  rw [stopped.charged.here]
  exact ((Account.admits_add _ _ _).mp fits).2

section Copies

variable {s t : Scene σ} {f : Failure}

theorem Value.adoptIn_refused {home : Home} {v : Value}
    (failed : Edit.orRefused (v.adoptIn home) s = .error f t) :
    ∃ n, home = .arena n ∧ Refused n (v.payloads n) s f t := by
  obtain ⟨r, refused, rfl, same⟩ := orRefused_error failed
  cases home with
  | heap => cases refused
  | arena n =>
    obtain ⟨copied, bytes, rest, split, rfl, stopped⟩ := adopt_stops refused
    exact ⟨n, rfl, same, copied, bytes, rest, split, rfl, stopped, fun _ => stopped.admits⟩

theorem Value.textIn_error {home : Home} {text : String} {l m : Ledger} {r : Refusal}
    (refused : textIn home text l = .error r m) : r = .copy text.utf8ByteSize ∧ m = l := by
  cases home with
  | heap => cases refused
  | arena n =>
    simp only [textIn] at refused
    split at refused
    · cases refused
    · rcases bind_eq_error refused with now | ⟨_, _, _, ⟨⟩⟩
      exact (copyTo_error now).2

theorem Value.bytesIn_error {home : Home} {b : List UInt8} {l m : Ledger} {r : Refusal}
    (refused : bytesIn home b l = .error r m) : r = .copy b.length ∧ m = l := by
  cases home with
  | heap => cases refused
  | arena n =>
    rcases bind_eq_error refused with now | ⟨_, _, _, ⟨⟩⟩
    exact (copyTo_error now).2

end Copies

section Targets

variable {f : Failure} {v : Value} {key : String}

theorem Value.adoptIn_bind_refused {home : Home} {g : Value → Edit σ α} {s t : Scene σ}
    (failed : (Edit.orRefused (v.adoptIn home) >>= g) s = .error f t)
    (answers : ∀ (w u : Value) (m : Ledger), w.adoptIn home = Pure.pure u →
      ∃ a t, g w ⟨s.subject, m⟩ = .ok a t) :
    ∃ n, home = .arena n ∧ Refused n (v.payloads n) s f t := by
  rcases bind_eq_error failed with now | ⟨w, ⟨x, m⟩, taken, later⟩
  · exact adoptIn_refused now
  · obtain ⟨adopted, rfl⟩ := orRefused_ok taken
    -- What was taken in costs nothing to take in once more, so what follows does not fail.
    obtain ⟨u, free⟩ := adoptIn_again adopted
    obtain ⟨a, t, answered⟩ := answers w u m free
    rw [answered] at later
    cases later

theorem Sequence.tryPush_refused {s t : Scene (Sequence Value)}
    (failed : tryPush v s = .error f t) :
    ∃ n, s.subject.home = .arena n ∧ Refused n (v.payloads n) s f t := by
  rw [tryPush, subject_bind] at failed
  exact Value.adoptIn_bind_refused failed fun _ _ _ _ => ⟨_, _, rfl⟩

theorem Object.place_free {o : Object Value} {u : Value} (free : v.adoptIn o.home = return u)
    (pos : Nat) (overwrite : Bool) :
    ∃ a p, ∀ l, place pos key v overwrite ⟨o, l⟩ = .ok a ⟨p, l⟩ := by
  simp only [place, subject_bind, free]
  split
  · cases overwrite with
    | true => exact ⟨_, o.assignAt pos u, fun _ => rfl⟩
    | false => exact ⟨_, o, fun _ => rfl⟩
  · exact ⟨_, o.insertAt pos ⟨key, u⟩, fun _ => rfl⟩

theorem Object.tryInsertOrAssign_refused {s t : Scene (Object Value)}
    (failed : tryInsertOrAssign key v s = .error f t) :
    ∃ n, s.subject.home = .arena n ∧ Refused n (v.payloads n) s f t := by
  rw [tryInsertOrAssign, subject_bind] at failed
  refine Value.adoptIn_bind_refused failed fun _ _ m free => ?_
  obtain ⟨a, p, placed⟩ := place_free free _ true
  exact ⟨a, ⟨p, m⟩, placed m⟩

theorem InsertionObject.place_free {o : InsertionObject Value} {u : Value}
    (free : v.adoptIn o.home = return u) (pos : Nat) (overwrite : Bool) :
    ∃ a p, ∀ l, place pos key v overwrite ⟨o, l⟩ = .ok a ⟨p, l⟩ := by
  simp only [place, subject_bind, free]
  cases o.find? key with
  | some found =>
    cases overwrite with
    | true => exact ⟨_, o.assignAt found u, fun _ => rfl⟩
    | false => exact ⟨_, o, fun _ => rfl⟩
  | none => exact ⟨_, o.insertAt pos ⟨key, u⟩, fun _ => rfl⟩

theorem InsertionObject.tryInsertOrAssign_refused {s t : Scene (InsertionObject Value)}
    (failed : tryInsertOrAssign key v s = .error f t) :
    ∃ n, s.subject.home = .arena n ∧ Refused n (v.payloads n) s f t := by
  rw [tryInsertOrAssign, subject_bind] at failed
  refine Value.adoptIn_bind_refused failed fun _ _ m free => ?_
  obtain ⟨a, p, placed⟩ := place_free free _ true
  exact ⟨a, ⟨p, m⟩, placed m⟩

theorem Value.trySetTextIn_refused {home : Home} {text : String} {s t : Scene Value}
    (failed : trySetTextIn home text s = .error f t) :
    f = .error (.refused text.utf8ByteSize) ∧ t = s := by
  rcases bind_eq_error failed with now | ⟨_, _, _, ⟨⟩⟩
  exact orRefused_untouched now fun _ _ => textIn_error

end Targets

/-- A refused operation leaves its target and all other arenas as they were. It costs nothing
where there is one payload, and else the copies of the payloads before the refused one. -/
theorem refusals_leave_targets :
    (∀ (v : Value) (s t : Scene (Sequence Value)) (f : Failure),
      Sequence.tryPush v s = .error f t →
      ∃ n, s.subject.home = .arena n ∧ Refused n (v.payloads n) s f t) ∧
    (∀ (key : String) (v : Value) (s t : Scene (Object Value)) (f : Failure),
      Object.tryInsertOrAssign key v s = .error f t →
      ∃ n, s.subject.home = .arena n ∧ Refused n (v.payloads n) s f t) ∧
    (∀ (key : String) (v : Value) (s t : Scene (InsertionObject Value)) (f : Failure),
      InsertionObject.tryInsertOrAssign key v s = .error f t →
      ∃ n, s.subject.home = .arena n ∧ Refused n (v.payloads n) s f t) ∧
    (∀ (home : Home) (text : String) (s t : Scene Value) (f : Failure),
      Value.trySetTextIn home text s = .error f t →
      f = .error (.refused text.utf8ByteSize) ∧ t = s) ∧
    (∀ {σ : Type} (home : Home) (text : String) (s t : Scene σ) (f : Failure),
      Edit.orRefused (Value.textIn home text) s = .error f t →
      f = .error (.refused text.utf8ByteSize) ∧ t = s) ∧
    (∀ {σ : Type} (home : Home) (b : List UInt8) (s t : Scene σ) (f : Failure),
      Edit.orRefused (Value.bytesIn home b) s = .error f t →
      f = .error (.refused b.length) ∧ t = s) := by
  refine ⟨?_, ?_, ?_, ?_, ?_, ?_⟩
  · exact fun _ _ _ _ => Sequence.tryPush_refused
  · exact fun _ _ _ _ _ => Object.tryInsertOrAssign_refused
  · exact fun _ _ _ _ _ => InsertionObject.tryInsertOrAssign_refused
  · exact fun _ _ _ _ _ => Value.trySetTextIn_refused
  · exact fun _ _ _ _ _ failed => orRefused_untouched failed fun _ _ => Value.textIn_error
  · exact fun _ _ _ _ _ failed => orRefused_untouched failed fun _ _ => Value.bytesIn_error

def sampleBytes (n : Nat) : Value := .ofBytes (List.replicate n 0)

def samplePair : Value := .ofSequence (.ofList [sampleBytes 30, sampleBytes 30])

def sampleRoom : Ledger := [{ limit := some 40 }]

/-- The second of two payloads does not fit. The array stays empty, but the arena keeps a copy of
the first, and then forty bytes fit no more that fitted before. -/
theorem refusal_costs_copies :
    ∃ f t, Sequence.tryPush samplePair ⟨.empty (.arena 0), sampleRoom⟩ = .error f t ∧
      (sampleRoom.account 0).used = 0 ∧ (t.ledger.account 0).used = 30 ∧
      (∃ u, Sequence.tryPush (sampleBytes 40) ⟨.empty (.arena 0), sampleRoom⟩ = .ok () u) ∧
      (∃ g u, Sequence.tryPush (sampleBytes 40) t = .error g u) :=
  ⟨_, _, rfl, rfl, rfl, ⟨_, rfl⟩, ⟨_, _, rfl⟩⟩

def sampleLong : String := "a text that is longer than forty bytes, if only just"

theorem refusals_leave_targets_sample :
    (∃ f t, Sequence.tryPush samplePair ⟨.empty (.arena 0), sampleRoom⟩ = .error f t ∧
      ∃ n, Home.arena 0 = .arena n ∧
        Refused n (samplePair.payloads n) ⟨Sequence.empty (.arena 0), sampleRoom⟩ f t) ∧
    (∃ f t, Value.trySetTextIn (.arena 0) sampleLong ⟨.null, sampleRoom⟩ = .error f t ∧
      t = ⟨.null, sampleRoom⟩) := by
  refine ⟨⟨_, _, rfl, ?_⟩, ⟨_, _, rfl, ?_⟩⟩
  · exact refusals_leave_targets.1 samplePair ⟨.empty (.arena 0), sampleRoom⟩ _ _ rfl
  · exact (refusals_leave_targets.2.2.2.1 (.arena 0) sampleLong ⟨.null, sampleRoom⟩ _ _ rfl).2

end DocTree
