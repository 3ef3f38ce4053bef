import DocTree.Proofs.Lockstep

namespace DocTree

variable {α β : Type}

namespace Account

def Sound (a : Account) : Prop :=
  a.used < byteLimit ∧ ∀ limit, a.limit = some limit → a.used ≤ limit

structure Precedes (a b : Account) : Prop where
  limit : b.limit = a.limit
  used : a.used ≤ b.used
  sound : a.Sound → b.Sound

variable {a b c : Account}

theorem Precedes.refl (a : Account) : a.Precedes a := by
  constructor
  · rfl
  · exact Nat.le_refl _
  · exact id

theorem Precedes.trans (first : a.Precedes b) (second : b.Precedes c) : a.Precedes c := by
  constructor
  · exact second.limit.trans first.limit
  · exact Nat.le_trans first.used second.used
  · exact fun start => second.sound (first.sound start)

@[simp] theorem charge_zero (a : Account) : a.charge 0 = a := rfl

@[simp] theorem charge_charge (a : Account) (m n : Nat) :
    (a.charge m).charge n = a.charge (m + n) := by
  simp only [charge, Nat.add_assoc]

theorem sound_of_unused (unused : a.used = 0) : a.Sound := by
  constructor
  · rw [unused]
    decide
  · intro limit _
    simp only [unused, Nat.zero_le]

theorem admits_iff (a : Account) (bytes : Nat) :
    a.admits bytes = true ↔ bytes = 0 ∨ (a.charge bytes).Sound := by
  cases limit : a.limit <;> simp [admits, Sound, charge, limit]

theorem refuses_iff (a : Account) (bytes : Nat) :
    a.admits bytes = false ↔ 0 < bytes ∧ ¬(a.charge bytes).Sound := by
  rw [← Bool.not_eq_true, admits_iff, not_or, Nat.pos_iff_ne_zero]

theorem charge_precedes {bytes : Nat} (fits : a.admits bytes = true) :
    a.Precedes (a.charge bytes) := by
  rcases (admits_iff a bytes).mp fits with rfl | sound
  · exact .refl a
  · constructor
    · rfl
    · exact Nat.le_add_right _ _
    · exact fun _ => sound

theorem admits_add (a : Account) (m n : Nat) :
    a.admits (m + n) = true ↔ a.admits m = true ∧ (a.charge m).admits n = true := by
  cases limit : a.limit <;>
    simp only [admits, charge, limit, Option.all_none, Option.all_some, Bool.or_eq_true,
      Bool.and_eq_true, decide_eq_true_eq, and_true] <;>
    omega

end Account

namespace Ledger

def Precedes (l m : Ledger) : Prop := ∀ n, (l.account n).Precedes (m.account n)

/-- What a ledger becomes when `bytes` are charged to arena `n`. -/
def Charged (l : Ledger) (n bytes : Nat) (m : Ledger) : Prop :=
  ∀ k, m.account k = if n = k then (l.account k).charge bytes else l.account k

variable {l m k : Ledger} {n bytes more : Nat}

theorem Precedes.refl (l : Ledger) : l.Precedes l := fun n => .refl (l.account n)

theorem Precedes.trans (first : l.Precedes m) (second : m.Precedes k) : l.Precedes k :=
  fun n => (first n).trans (second n)

theorem Charged.nothing (l : Ledger) (n : Nat) : l.Charged n 0 l := by
  intro k
  simp only [Account.charge_zero, ite_self]

theorem Charged.trans (first : l.Charged n bytes m) (second : m.Charged n more k) :
    l.Charged n (bytes + more) k := by
  intro i
  rw [second i, first i]
  split
  · exact Account.charge_charge _ _ _
  · rfl

theorem Charged.here (charged : l.Charged n bytes m) :
    m.account n = (l.account n).charge bytes := by
  rw [charged n, if_pos rfl]

theorem Charged.elsewhere (charged : l.Charged n bytes m) {k : Nat} (other : k ≠ n) :
    m.account k = l.account k := by
  rw [charged k, if_neg other.symm]

theorem Charged.precedes (charged : l.Charged n bytes m)
    (fits : (l.account n).admits bytes = true) : l.Precedes m := by
  intro k
  rw [charged k]
  split
  · rename_i here
    subst here
    exact Account.charge_precedes fits
  · exact .refl _

end Ledger

theorem copyTo_ok {n bytes : Nat} {l m : Ledger} {u : Unit} (copied : copyTo n bytes l = .ok u m) :
    (l.account n).admits bytes = true ∧ l.Charged n bytes m := by
  unfold copyTo at copied
  split at copied
  · rename_i fits
    cases copied
    refine ⟨fits, fun k => ?_⟩
    rw [Ledger.account_update]
  · cases copied

theorem copyTo_error {n bytes : Nat} {l m : Ledger} {r : Refusal}
    (refused : copyTo n bytes l = .error r m) :
    (l.account n).admits bytes = false ∧ r = .copy bytes ∧ m = l := by
  unfold copyTo at refused
  split at refused
  · cases refused
  · rename_i full
    cases refused
    exact ⟨Bool.not_eq_true _ ▸ full, rfl, rfl⟩

theorem copyTo_refuses {n bytes : Nat} {l : Ledger} (full : (l.account n).admits bytes = false) :
    copyTo n bytes l = .error (.copy bytes) l := by
  unfold copyTo
  rw [full]
  rfl

section Reported

variable {σ : Type} {c : Charging α} {s t : Scene σ} {f : Failure} {l m : Ledger}

theorem Edit.charge_of_ok {a : α} (given : c l = .ok a m) (onRefusal : Refusal → Failure) (x : σ) :
    charge onRefusal c ⟨x, l⟩ = .ok a ⟨x, m⟩ := by
  simp only [charge, given]

theorem Edit.charge_of_error {r : Refusal} (refused : c l = .error r m)
    (onRefusal : Refusal → Failure) (x : σ) :
    charge onRefusal c ⟨x, l⟩ = .error (onRefusal r) ⟨x, m⟩ := by
  simp only [charge, refused]

theorem orRefused_ok {a : α} (ran : Edit.orRefused c s = .ok a t) :
    c s.ledger = .ok a t.ledger ∧ t.subject = s.subject := by
  unfold Edit.orRefused Edit.charge at ran
  cases charged : c s.ledger with
  | ok b m =>
    simp only [charged, EStateM.Result.ok.injEq] at ran
    obtain ⟨rfl, rfl⟩ := ran
    exact ⟨rfl, rfl⟩
  | error r m => simp only [charged, reduceCtorEq] at ran

theorem orRefused_error (failed : Edit.orRefused c s = .error f t) :
    ∃ r, c s.ledger = .error r t.ledger ∧ f = r.reported ∧ t.subject = s.subject := by
  unfold Edit.orRefused Edit.charge at failed
  cases ran : c s.ledger with
  | ok a m => simp only [ran, reduceCtorEq] at failed
  | error r m =>
    simp only [ran, EStateM.Result.error.injEq] at failed
    obtain ⟨rfl, rfl⟩ := failed
    exact ⟨r, rfl, rfl, rfl⟩

theorem orRefused_untouched {bytes : Nat} (failed : Edit.orRefused c s = .error f t)
    (first : ∀ r m, c s.ledger = .error r m → r = .copy bytes ∧ m = s.ledger) :
    f = .error (.refused bytes) ∧ t = s := by
  obtain ⟨r, refused, rfl, same⟩ := orRefused_error failed
  obtain ⟨rfl, left⟩ := first r _ refused
  obtain ⟨y, m⟩ := t
  cases same
  cases left
  exact ⟨rfl, rfl⟩

end Reported

def stateLeft {ε σ : Type} : EStateM.Result ε σ α → σ
  | .ok _ s | .error _ s => s

def Forward (c : Charging α) : Prop := ∀ l : Ledger, l.Precedes (stateLeft (c l))

namespace Forward

variable {c : Charging α} {l m : Ledger}

theorem of_ok (forward : Forward c) {a : α} (ran : c l = .ok a m) : l.Precedes m := by
  simpa only [ran, stateLeft] using forward l

theorem of_error (forward : Forward c) {r : Refusal} (ran : c l = .error r m) : l.Precedes m := by
  simpa only [ran, stateLeft] using forward l

theorem pure (a : α) : Forward (Pure.pure a) := fun l => .refl l

theorem bind {f : α → Charging β} (first : Forward c) (next : ∀ a, Forward (f a)) :
    Forward (c >>= f) := by
  intro l
  cases ran : (c >>= f) l with
  | ok b k =>
    obtain ⟨a, m, now, later⟩ := bind_eq_ok ran
    exact (first.of_ok now).trans ((next a).of_ok later)
  | error r k =>
    rcases bind_eq_error ran with now | ⟨a, m, now, later⟩
    · exact first.of_error now
    · exact (first.of_ok now).trans ((next a).of_error later)

theorem copyTo (n bytes : Nat) : Forward (copyTo n bytes) := by
  intro l
  cases ran : DocTree.copyTo n bytes l with
  | ok u m =>
    obtain ⟨fits, charged⟩ := copyTo_ok ran
    exact charged.precedes fits
  | error r m =>
    obtain ⟨_, _, rfl⟩ := copyTo_error ran
    exact .refl _

theorem haveRoom (n : Nat) : Forward (haveRoom n) := by
  unfold DocTree.haveRoom
  split
  · exact .pure _
  · exact fun l => .refl l

end Forward

end DocTree
