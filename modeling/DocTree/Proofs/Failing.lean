import DocTree.Proofs.Copies

namespace DocTree

variable {σ α β ε : Type}

def Exhausting (e : Edit σ α) : Prop :=
  ∀ s f t, e s = .error f t → ∃ bytes, f = .exhausted bytes

/-- Unless it runs out of arena, a failure leaves the subject as it was. -/
def Clean (e : Edit σ α) : Prop :=
  ∀ s f t, e s = .error f t → (∃ bytes, f = .exhausted bytes) ∨ t.subject = s.subject

def Copying (c : Charging α) : Prop :=
  ∀ l r l', c l = .error r l' → ∃ bytes, r = .copy bytes

section Copying

theorem Copying.pure (a : α) : Copying (Pure.pure a) := by
  intro l r l' refused
  cases refused

theorem Copying.bind {c : Charging α} {f : α → Charging β} (first : Copying c)
    (next : ∀ a, Copying (f a)) : Copying (c >>= f) := by
  intro l r l' refused
  rcases bind_eq_error refused with now | ⟨a, u, -, later⟩
  · exact first _ _ _ now
  · exact next a _ _ _ later

theorem copyTo_copying (n bytes : Nat) : Copying (copyTo n bytes) := by
  intro l r l' refused
  obtain ⟨_, rfl, _⟩ := copyTo_error refused
  exact ⟨bytes, rfl⟩

theorem copyAll_copying (n : Nat) (sizes : List Nat) : Copying (copyAll n sizes) := by
  induction sizes with
  | nil => exact .pure _
  | cons bytes sizes ih => exact (copyTo_copying n bytes).bind fun _ => ih

theorem Value.adopt_copying (n : Nat) (v : Value) : Copying (v.adopt n) := by
  rw [adopt_eq]
  exact (copyAll_copying n _).bind fun _ => .pure _

theorem Value.adoptMembers_copying (n : Nat) (ms : List (Member Value)) :
    Copying (Value.adoptMembers n ms) := by
  rw [adoptMembers_eq]
  exact (copyAll_copying n _).bind fun _ => .pure _

theorem Value.adoptIn_copying (home : Home) (v : Value) : Copying (v.adoptIn home) := by
  cases home with
  | heap => exact .pure v
  | arena n => exact adopt_copying n v

theorem adoptMembersIn_copying (home : Home) (ms : List (Member Value)) :
    Copying (adoptMembersIn home ms) := by
  cases home with
  | heap => exact .pure ms
  | arena n => exact Value.adoptMembers_copying n ms

theorem Fits.refused {home : Home} {ms : List (Member Value)} {l : Ledger}
    (overfull : ¬ Fits home ms l) :
    ∃ bytes k, adoptMembersIn home ms l = .error (.copy bytes) k := by
  cases adopted : adoptMembersIn home ms l with
  | ok ks k => exact absurd (Fits.of_adopted adopted) overfull
  | error r k =>
    obtain ⟨bytes, rfl⟩ := adoptMembersIn_copying home ms _ _ _ adopted
    exact ⟨bytes, k, rfl⟩

end Copying

section Exhausting

theorem Exhausting.pure (a : α) : Exhausting (Pure.pure a : Edit σ α) := by
  intro s f t failed
  cases failed

theorem Exhausting.update (g : σ → σ) : Exhausting (Edit.update g) := by
  intro s f t failed
  cases failed

theorem Exhausting.subject : Exhausting (Edit.subject : Edit σ σ) := by
  intro s f t failed
  cases failed

theorem Exhausting.orExhausted {c : Charging α} (copying : Copying c) :
    Exhausting (Edit.orExhausted c : Edit σ α) := by
  intro s f t failed
  unfold Edit.orExhausted Edit.charge at failed
  cases charged : c s.ledger with
  | ok a l => simp [charged] at failed
  | error r l =>
    obtain ⟨bytes, rfl⟩ := copying _ _ _ charged
    simp only [charged, EStateM.Result.error.injEq] at failed
    exact ⟨bytes, failed.1.symm⟩

theorem Exhausting.bind {e : Edit σ α} {g : α → Edit σ β} (first : Exhausting e)
    (next : ∀ a, Exhausting (g a)) : Exhausting (e >>= g) := by
  intro s f t failed
  rcases bind_eq_error failed with now | ⟨a, u, -, later⟩
  · exact first _ _ _ now
  · exact next a _ _ _ later

theorem Exhausting.map {e : Edit σ α} (first : Exhausting e) (g : α → β) :
    Exhausting (g <$> e) :=
  first.bind fun a => .pure (g a)

theorem Exhausting.discard {e : Edit σ α} (first : Exhausting e) : Exhausting (discard e) :=
  first.map fun _ => ()

theorem Exhausting.forM {xs : List ε} {e : ε → Edit σ PUnit} (each : ∀ x, Exhausting (e x)) :
    Exhausting (xs.forM e) := by
  induction xs with
  | nil => exact .pure _
  | cons x xs ih => exact (each x).bind fun _ => ih

theorem Exhausting.foldlM {xs : List ε} {e : β → ε → Edit σ β}
    (each : ∀ a x, Exhausting (e a x)) (a : β) : Exhausting (xs.foldlM e a) := by
  induction xs generalizing a with
  | nil => exact .pure _
  | cons x xs ih =>
    rw [List.foldlM_cons]
    exact (each a x).bind fun b => ih b

theorem Exhausting.zoom? {τ : Type} {e : Edit τ α} (inner : Exhausting e) (part : Option τ)
    (putBack : τ → σ) : Exhausting (Edit.zoom? part putBack e) := by
  cases part with
  | none => exact .pure _
  | some p =>
    refine Exhausting.map (fun s f t failed => ?_) some
    unfold Edit.zoom at failed
    cases edited : e ⟨p, s.ledger⟩ with
    | ok a u => simp [edited] at failed
    | error g u =>
      simp only [edited, EStateM.Result.error.injEq] at failed
      obtain ⟨bytes, rfl⟩ := inner _ _ _ edited
      exact ⟨bytes, failed.1.symm⟩

end Exhausting

section Clean

theorem Exhausting.clean {e : Edit σ α} (exhausting : Exhausting e) : Clean e :=
  fun s f t failed => .inl (exhausting s f t failed)

theorem Clean.fault (f : Fault) : Clean (Edit.fault f : Edit σ α) := by
  intro s _ t failed
  cases failed
  exact .inr rfl

theorem Clean.ofExcept (r : Except Fault α) : Clean (Edit.ofExcept r : Edit σ α) := by
  cases r with
  | ok a => exact (Exhausting.pure a).clean
  | error f => exact .fault f

theorem Clean.subject_bind {g : σ → Edit σ α} (next : ∀ x, Clean (g x)) :
    Clean (Edit.subject >>= g) :=
  fun s f t failed => next s.subject s f t failed

theorem Clean.bind {e : Edit σ α} {g : α → Edit σ β} (first : Clean e)
    (next : ∀ a, Exhausting (g a)) : Clean (e >>= g) := by
  intro s f t failed
  rcases bind_eq_error failed with now | ⟨a, u, -, later⟩
  · exact first _ _ _ now
  · exact .inl (next a _ _ _ later)

end Clean

end DocTree
