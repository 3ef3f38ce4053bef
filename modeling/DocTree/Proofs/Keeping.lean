import DocTree.Proofs.Copies

/-!
Edits that keep an invariant of their subject, whether they succeed or fail, answer only what the
invariant is about, and move the accounts of arenas forward only.
-/

namespace DocTree

variable {σ τ α β ε : Type}

/-- The subject that is left has `I`, also after a failure, and the answer has `J`. The ledger is
one that may follow `l`. -/
inductive Kept (I : σ → Prop) (J : α → Prop) (l : Ledger) :
    EStateM.Result Failure (Scene σ) α → Prop
  | ok {a : α} {x : σ} {m : Ledger} : J a → I x → l.Precedes m → Kept I J l (.ok a ⟨x, m⟩)
  | error {f : Failure} {x : σ} {m : Ledger} :
      I x → l.Precedes m → Kept I J l (.error f ⟨x, m⟩)

def Keeps (I : σ → Prop) (J : α → Prop) (e : Edit σ α) : Prop :=
  ∀ x l, I x → Kept I J l (e ⟨x, l⟩)

section Rules

variable {I : σ → Prop} {J : α → Prop} {K : β → Prop} {l : Ledger}

theorem Kept.left {r : EStateM.Result Failure (Scene σ) α} (kept : Kept I J l r) :
    I (leftBy r) := by
  cases kept <;> assumption

theorem Kept.forward {r : EStateM.Result Failure (Scene σ) α} (kept : Kept I J l r) :
    l.Precedes (stateLeft r).ledger := by
  cases kept <;> assumption

theorem Kept.after {m : Ledger} {r : EStateM.Result Failure (Scene σ) α} (kept : Kept I J m r)
    (before : l.Precedes m) : Kept I J l r := by
  cases kept with
  | ok answer holds forward => exact .ok answer holds (before.trans forward)
  | error holds forward => exact .error holds (before.trans forward)

theorem Kept.imp {H : σ → Prop} {r : EStateM.Result Failure (Scene σ) α} (kept : Kept I J l r)
    (weaker : ∀ x, I x → H x) : Kept H J l r := by
  cases kept with
  | ok answer holds forward => exact .ok answer (weaker _ holds) forward
  | error holds forward => exact .error (weaker _ holds) forward

theorem Keeps.answer {e : Edit σ α} (keeps : Keeps I J e) {x : σ} (start : I x) {a : α}
    {s : Scene σ} (ran : e ⟨x, l⟩ = .ok a s) : J a := by
  have kept := keeps x l start
  rw [ran] at kept
  cases kept
  assumption

theorem Kept.and {H : σ → Prop} {r : EStateM.Result Failure (Scene σ) α} (kept : Kept I J l r)
    (left : H (leftBy r)) : Kept (fun x => H x ∧ I x) J l r := by
  cases kept with
  | ok answer holds forward => exact .ok answer ⟨left, holds⟩ forward
  | error holds forward => exact .error ⟨left, holds⟩ forward

theorem Kept.bind {e : Edit σ α} {g : α → Edit σ β} {s : Scene σ} (first : Kept I J l (e s))
    (next : ∀ a, J a → Keeps I K (g a)) : Kept I K l ((e >>= g) s) := by
  change Kept I K l (EStateM.bind e g s)
  unfold EStateM.bind
  generalize e s = result at first ⊢
  cases first with
  | ok answer start forward => exact (next _ answer _ _ start).after forward
  | error start forward => exact .error start forward

theorem Keeps.pure {a : α} (answer : J a) : Keeps I J (Pure.pure a : Edit σ α) :=
  fun _ l start => .ok answer start (.refl l)

theorem Keeps.bind {e : Edit σ α} {g : α → Edit σ β} (first : Keeps I J e)
    (next : ∀ a, J a → Keeps I K (g a)) : Keeps I K (e >>= g) :=
  fun x l start => (first x l start).bind next

theorem Keeps.map {e : Edit σ α} (keeps : Keeps I J e) {g : α → β} (answer : ∀ a, J a → K (g a)) :
    Keeps I K (g <$> e) :=
  keeps.bind fun a holds => .pure (answer a holds)

theorem Kept.answering {L : α → Prop} {r : EStateM.Result Failure (Scene σ) α}
    (kept : Kept I J l r) (weaker : ∀ a, J a → L a) : Kept I L l r := by
  cases kept with
  | ok answer holds forward => exact .ok (weaker _ answer) holds forward
  | error holds forward => exact .error holds forward

theorem Kept.silent {r : EStateM.Result Failure (Scene σ) α} (kept : Kept I J l r) :
    Kept I (fun _ => True) l r := kept.answering fun _ _ => trivial

theorem Keeps.imp {L : α → Prop} {e : Edit σ α} (keeps : Keeps I J e)
    (weaker : ∀ a, J a → L a) : Keeps I L e :=
  fun x l start => (keeps x l start).answering weaker

theorem Keeps.silent {e : Edit σ α} (keeps : Keeps I J e) : Keeps I (fun _ => True) e :=
  keeps.imp fun _ _ => trivial

theorem Keeps.subject : Keeps I I Edit.subject := fun _ l start => .ok start start (.refl l)

theorem Keeps.update {g : σ → σ} (kept : ∀ x, I x → I (g x)) :
    Keeps I (fun _ => True) (Edit.update g) :=
  fun x l start => .ok trivial (kept x start) (.refl l)

theorem Keeps.put {x : σ} (start : I x) : Keeps I (fun _ => True) (Edit.put x) :=
  .update fun _ _ => start

theorem Keeps.fail (e : Error) : Keeps I J (Edit.fail e) := fun _ l start => .error start (.refl l)

theorem Keeps.fault (f : Fault) : Keeps I J (Edit.fault f) :=
  fun _ l start => .error start (.refl l)

theorem Keeps.fault_bind {f : Fault} {g : α → Edit σ β} : Keeps I K (Edit.fault f >>= g) :=
  fun _ l start => .error start (.refl l)

theorem Keeps.fail_bind {e : Error} {g : α → Edit σ β} : Keeps I K (Edit.fail e >>= g) :=
  fun _ l start => .error start (.refl l)

theorem Keeps.ofExcept {r : Except Fault α} (answer : ∀ a, r = .ok a → J a) :
    Keeps I J (Edit.ofExcept r) := by
  cases r with
  | ok a => exact .pure (answer a rfl)
  | error f => exact .fault f

theorem Keeps.charge (onRefusal : Refusal → Failure) {c : Charging α} (forward : Forward c)
    (answer : ∀ a l m, c l = .ok a m → J a) : Keeps I J (Edit.charge onRefusal c) := by
  intro x l start
  unfold Edit.charge
  dsimp only
  cases charged : c l with
  | ok a m => exact .ok (answer a l m charged) start (forward.of_ok charged)
  | error r m => exact .error start (forward.of_error charged)

theorem Keeps.checkRoom (n : Nat) : Keeps I (fun _ => True) (checkRoom n) :=
  .charge _ (.haveRoom n) fun _ _ _ _ => trivial

theorem Keeps.zoom {H : τ → Prop} {e : Edit τ α} (inner : Keeps H J e) {part : τ} (start : H part)
    {putBack : τ → σ} (back : ∀ t, H t → I (putBack t)) : Keeps I J (Edit.zoom part putBack e) := by
  intro x l _
  have kept := inner part l start
  unfold Edit.zoom
  dsimp only
  generalize e ⟨part, l⟩ = result at kept ⊢
  cases kept with
  | ok answer left forward => exact .ok answer (back _ left) forward
  | error left forward => exact .error (back _ left) forward

def IfSome (J : α → Prop) (x : Option α) : Prop := ∀ a, x = some a → J a

theorem IfSome.none : IfSome J none := nofun

theorem IfSome.some {a : α} (holds : J a) : IfSome J (some a) := by
  rintro _ ⟨⟩
  exact holds

theorem Keeps.zoom? {H : τ → Prop} {e : Edit τ α} (inner : Keeps H J e) {part : Option τ}
    (start : IfSome H part) {putBack : τ → σ} (back : ∀ t, H t → I (putBack t)) :
    Keeps I (IfSome J) (Edit.zoom? part putBack e) := by
  cases part with
  | none => exact .pure .none
  | some p => exact (inner.zoom (start p rfl) back).map fun _ => .some

theorem Keeps.forM {xs : List ε} {e : ε → Edit σ PUnit}
    (each : ∀ x ∈ xs, Keeps I (fun _ => True) (e x)) : Keeps I (fun _ => True) (xs.forM e) := by
  induction xs with
  | nil => exact .pure trivial
  | cons x xs ih =>
    exact (each x List.mem_cons_self).bind fun _ _ =>
      ih fun y isIn => each y (List.mem_cons_of_mem x isIn)

theorem Keeps.foldlM {xs : List ε} {e : β → ε → Edit σ β}
    (each : ∀ b, ∀ x ∈ xs, Keeps I (fun _ => True) (e b x)) (b : β) :
    Keeps I (fun _ => True) (xs.foldlM e b) := by
  induction xs generalizing b with
  | nil => exact .pure trivial
  | cons x xs ih =>
    rw [List.foldlM_cons]
    exact (each b x List.mem_cons_self).bind fun c _ =>
      ih (fun d y isIn => each d y (List.mem_cons_of_mem x isIn)) c

theorem Keeps.discard {e : Edit σ α} (keeps : Keeps I J e) :
    Keeps I (fun _ => True) (discard e) :=
  keeps.map fun _ _ => trivial

end Rules

end DocTree
