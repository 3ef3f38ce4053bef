import Mathlib.Data.List.Forall2
import DocTree.Answer

/-!
Two edits in lockstep: from subjects that match and one ledger they answer or fail the same way,
and leave subjects that match again and one ledger.
-/

namespace DocTree

variable {σ τ α β γ δ ε : Type}

/-- Two results that say the same: matching answers or one failure, with matching subjects and
one ledger. -/
inductive Alike (R : σ → τ → Prop) (A : α → β → Prop) :
    EStateM.Result Failure (Scene σ) α → EStateM.Result Failure (Scene τ) β → Prop where
  | ok {a : α} {b : β} {x : σ} {y : τ} {l : Ledger} :
      A a b → R x y → Alike R A (.ok a ⟨x, l⟩) (.ok b ⟨y, l⟩)
  | error {f : Failure} {x : σ} {y : τ} {l : Ledger} :
      R x y → Alike R A (.error f ⟨x, l⟩) (.error f ⟨y, l⟩)

def leftBy : EStateM.Result Failure (Scene σ) α → σ
  | .ok _ s | .error _ s => s.subject

theorem Alike.matched {R : σ → τ → Prop} {A : α → β → Prop}
    {r : EStateM.Result Failure (Scene σ) α} {q : EStateM.Result Failure (Scene τ) β}
    (alike : Alike R A r q) : R (leftBy r) (leftBy q) := by
  cases alike <;> assumption

theorem Alike.imp {R S : σ → τ → Prop} {A : α → β → Prop} (weaker : ∀ x y, R x y → S x y)
    {r : EStateM.Result Failure (Scene σ) α} {q : EStateM.Result Failure (Scene τ) β}
    (alike : Alike R A r q) : Alike S A r q := by
  cases alike with
  | ok same matched => exact .ok same (weaker _ _ matched)
  | error matched => exact .error (weaker _ _ matched)

theorem Alike.refl {R : σ → σ → Prop} (same : ∀ x, R x x)
    (r : EStateM.Result Failure (Scene σ) α) : Alike R Eq r r := by
  cases r with
  | ok a s => exact .ok rfl (same s.subject)
  | error f s => exact .error (same s.subject)

theorem Alike.flip {R : σ → τ → Prop} {r : EStateM.Result Failure (Scene σ) α}
    {q : EStateM.Result Failure (Scene τ) α} (alike : Alike R Eq r q) :
    Alike (fun y x => R x y) Eq q r := by
  cases alike with
  | ok same matched => exact .ok same.symm matched
  | error matched => exact .error matched

theorem Alike.trans {ρ : Type} {R : σ → τ → Prop} {S : τ → ρ → Prop} {T : σ → ρ → Prop}
    {r : EStateM.Result Failure (Scene σ) α} {q : EStateM.Result Failure (Scene τ) α}
    {t : EStateM.Result Failure (Scene ρ) α} (first : Alike R Eq r q) (second : Alike S Eq q t)
    (through : ∀ x y z, R x y → S y z → T x z) : Alike T Eq r t := by
  cases first with
  | ok same matched =>
    cases second with
    | ok also further => exact .ok (same.trans also) (through _ _ _ matched further)
  | error matched =>
    cases second with
    | error further => exact .error (through _ _ _ matched further)

/-- Two edits that are alike from all subjects that match. -/
def Lockstep (R : σ → τ → Prop) (A : α → β → Prop) (e : Edit σ α) (f : Edit τ β) : Prop :=
  ∀ x y l, R x y → Alike R A (e ⟨x, l⟩) (f ⟨y, l⟩)

theorem bind_of_ok {ε σ α β : Type} {x : EStateM ε σ α} {f : α → EStateM ε σ β} {s t : σ}
    {a : α} (first : x s = .ok a t) : (x >>= f) s = f a t := by
  change EStateM.bind x f s = _
  unfold EStateM.bind
  rw [first]

theorem bind_of_error {ε σ α β : Type} {x : EStateM ε σ α} {f : α → EStateM ε σ β} {s t : σ}
    {e : ε} (first : x s = .error e t) : (x >>= f) s = .error e t := by
  change EStateM.bind x f s = _
  unfold EStateM.bind
  rw [first]

theorem bind_eq_ok {ε σ α β : Type} {x : EStateM ε σ α} {f : α → EStateM ε σ β} {s t : σ}
    {b : β} (done : (x >>= f) s = .ok b t) : ∃ a u, x s = .ok a u ∧ f a u = .ok b t := by
  change EStateM.bind x f s = _ at done
  unfold EStateM.bind at done
  cases first : x s with
  | ok a u => exact ⟨a, u, rfl, by simpa only [first] using done⟩
  | error e u => simp only [first, reduceCtorEq] at done

theorem bind_eq_error {ε σ α β : Type} {x : EStateM ε σ α} {f : α → EStateM ε σ β} {s t : σ}
    {e : ε} (failed : (x >>= f) s = .error e t) :
    x s = .error e t ∨ ∃ a u, x s = .ok a u ∧ f a u = .error e t := by
  change EStateM.bind x f s = _ at failed
  unfold EStateM.bind at failed
  cases first : x s with
  | ok a u =>
    simp only [first] at failed
    exact .inr ⟨a, u, rfl, failed⟩
  | error e' u =>
    simp only [first, EStateM.Result.error.injEq] at failed
    obtain ⟨rfl, rfl⟩ := failed
    exact .inl rfl

theorem subject_bind (g : σ → Edit σ α) (s : Scene σ) :
    (Edit.subject >>= g) s = g s.subject s := rfl

section Rules

variable {R : σ → τ → Prop} {A : α → β → Prop} {B : γ → δ → Prop}

theorem Lockstep.pure {a : α} {b : β} (same : A a b) :
    Lockstep R A (Pure.pure a : Edit σ α) (Pure.pure b : Edit τ β) :=
  fun _ _ _ start => .ok same start

theorem Alike.bind {e : Edit σ α} {f : Edit τ β} {g : α → Edit σ γ} {h : β → Edit τ δ}
    {s : Scene σ} {t : Scene τ} (first : Alike R A (e s) (f t))
    (next : ∀ a b, A a b → Lockstep R B (g a) (h b)) :
    Alike R B ((e >>= g) s) ((f >>= h) t) := by
  change Alike R B (EStateM.bind e g s) (EStateM.bind f h t)
  unfold EStateM.bind
  generalize e s = result at first ⊢
  generalize f t = other at first ⊢
  cases first with
  | ok same matched => exact next _ _ same _ _ _ matched
  | error matched => exact .error matched

theorem Lockstep.bind {e : Edit σ α} {f : Edit τ β} {g : α → Edit σ γ} {h : β → Edit τ δ}
    (first : Lockstep R A e f) (next : ∀ a b, A a b → Lockstep R B (g a) (h b)) :
    Lockstep R B (e >>= g) (f >>= h) :=
  fun x y l start => (first x y l start).bind next

theorem Lockstep.update {g : σ → σ} {h : τ → τ} (kept : ∀ x y, R x y → R (g x) (h y)) :
    Lockstep R Eq (Edit.update g) (Edit.update h) :=
  fun x y _ start => .ok rfl (kept x y start)

theorem Alike.charge {r : Refusal → Failure} {c : Charging ε} {g : ε → Edit σ α}
    {h : ε → Edit τ β} {x : σ} {y : τ} {l : Ledger} (start : R x y)
    (next : ∀ a l', c l = .ok a l' → Alike R A (g a ⟨x, l'⟩) (h a ⟨y, l'⟩)) :
    Alike R A ((Edit.charge r c >>= g) ⟨x, l⟩) ((Edit.charge r c >>= h) ⟨y, l⟩) := by
  change Alike R A (EStateM.bind _ g _) (EStateM.bind _ h _)
  unfold EStateM.bind Edit.charge
  cases charged : c l with
  | ok a l' => simpa only [charged] using next a l' charged
  | error refusal l' => simpa only [charged] using .error start

theorem charge_bind_pure (r : Refusal → Failure) (c : Charging ε) (f : ε → α)
    (g : α → Edit σ β) (s : Scene σ) :
    (Edit.charge r (c >>= fun a => Pure.pure (f a)) >>= g) s =
      (Edit.charge r c >>= fun a => g (f a)) s := by
  simp only [bind, EStateM.bind, Edit.charge]
  cases c s.ledger <;> rfl

theorem Alike.chargeMade {r : Refusal → Failure} {c : Charging ε} {made : ε → γ} {other : ε → δ}
    {g : γ → Edit σ α} {h : δ → Edit τ β} {x : σ} {y : τ} {l : Ledger} (start : R x y)
    (next : ∀ a l', c l = .ok a l' → Alike R A (g (made a) ⟨x, l'⟩) (h (other a) ⟨y, l'⟩)) :
    Alike R A ((Edit.charge r (c >>= fun a => Pure.pure (made a)) >>= g) ⟨x, l⟩)
      ((Edit.charge r (c >>= fun a => Pure.pure (other a)) >>= h) ⟨y, l⟩) := by
  rw [charge_bind_pure, charge_bind_pure]
  exact .charge start next

theorem Lockstep.forM {xs : List ε} {e : ε → Edit σ PUnit} {f : ε → Edit τ PUnit}
    (each : ∀ x ∈ xs, Lockstep R Eq (e x) (f x)) :
    Lockstep R Eq (xs.forM e) (xs.forM f) := by
  induction xs with
  | nil => exact .pure rfl
  | cons x xs ih =>
    exact (each x List.mem_cons_self).bind fun _ _ _ =>
      ih fun y hy => each y (List.mem_cons_of_mem x hy)

theorem Lockstep.foldlM {xs : List ε} {e : γ → ε → Edit σ γ} {f : γ → ε → Edit τ γ}
    (each : ∀ a, ∀ x ∈ xs, Lockstep R Eq (e a x) (f a x)) (a : γ) :
    Lockstep R Eq (xs.foldlM e a) (xs.foldlM f a) := by
  induction xs generalizing a with
  | nil => exact .pure rfl
  | cons x xs ih =>
    rw [List.foldlM_cons, List.foldlM_cons]
    apply (each a x List.mem_cons_self).bind
    intro b _ same
    cases same
    exact ih (fun c y hy => each c y (List.mem_cons_of_mem x hy)) b

theorem Alike.mapLeft {e : Edit σ α} {s : Scene σ} {q : EStateM.Result Failure (Scene τ) β}
    (alike : Alike R A (e s) q) (g : α → γ) {C : γ → β → Prop}
    (kept : ∀ a b, A a b → C (g a) b) : Alike R C ((g <$> e) s) q := by
  change Alike R C (EStateM.map g e s) q
  unfold EStateM.map
  generalize e s = result at alike ⊢
  cases alike with
  | ok matching matched => exact .ok (kept _ _ matching) matched
  | error matched => exact .error matched

theorem Alike.mapRight {r : EStateM.Result Failure (Scene σ) α} {f : Edit τ β} {t : Scene τ}
    (alike : Alike R A r (f t)) (g : β → γ) {C : α → γ → Prop}
    (kept : ∀ a b, A a b → C a (g b)) : Alike R C r ((g <$> f) t) := by
  change Alike R C r (EStateM.map g f t)
  unfold EStateM.map
  generalize f t = result at alike ⊢
  cases alike with
  | ok matching matched => exact .ok (kept _ _ matching) matched
  | error matched => exact .error matched

theorem Lockstep.map {e : Edit σ α} {f : Edit τ α} (g : α → γ) (same : Lockstep R Eq e f) :
    Lockstep R Eq (g <$> e) (g <$> f) :=
  fun x y l start => ((same x y l start).mapLeft g fun _ _ => congrArg g).mapRight g fun _ _ => id

theorem Lockstep.foldlM_forM {xs : List ε} {e : γ → ε → Edit σ γ} {f : ε → Edit τ PUnit}
    (each : ∀ a, ∀ x ∈ xs, Lockstep R (fun _ _ => True) (e a x) (f x)) (a : γ) :
    Lockstep R (fun _ _ => True) (xs.foldlM e a) (xs.forM f) := by
  induction xs generalizing a with
  | nil => exact .pure trivial
  | cons x xs ih =>
    rw [List.foldlM_cons]
    exact (each a x List.mem_cons_self).bind fun b _ _ =>
      ih (fun c y hy => each c y (List.mem_cons_of_mem x hy)) b

theorem Lockstep.discard {e : Edit σ α} {f : Edit τ α} (same : Lockstep R Eq e f) :
    Lockstep R Eq (discard e) (discard f) :=
  same.map fun _ => ()

theorem Lockstep.done {e : Edit σ Unit} {f : Edit τ Unit} (same : Lockstep R Eq e f) :
    Lockstep R Eq (done e) (done f) :=
  same.bind fun _ _ _ => .pure rfl

theorem Lockstep.answering {e : Edit σ α} {f : Edit τ β}
    (same : Lockstep R A e f) {g : α → γ} {h : β → δ} (answers : ∀ a b, A a b → B (g a) (h b)) :
    Lockstep R B (g <$> e) (h <$> f) :=
  same.bind fun a b alike => .pure (answers a b alike)

theorem Lockstep.subject : Lockstep R R Edit.subject Edit.subject :=
  fun _ _ _ start => .ok start start

theorem Lockstep.put {x : σ} {y : τ} (matched : R x y) :
    Lockstep R Eq (Edit.put x) (Edit.put y) := .update fun _ _ _ => matched

theorem Lockstep.fail (e : Error) : Lockstep R A (Edit.fail e) (Edit.fail e) :=
  fun _ _ _ start => .error start

theorem Lockstep.fault (f : Fault) : Lockstep R A (Edit.fault f) (Edit.fault f) :=
  fun _ _ _ start => .error start

theorem Lockstep.fail_bind {e : Error} {g : ε → Edit σ α} {h : ε → Edit τ β} :
    Lockstep R A (Edit.fail e >>= g) (Edit.fail e >>= h) := fun _ _ _ start => .error start

theorem Lockstep.fault_bind {f : Fault} {g : ε → Edit σ α} {h : ε → Edit τ β} :
    Lockstep R A (Edit.fault f >>= g) (Edit.fault f >>= h) := fun _ _ _ start => .error start

theorem Lockstep.zoom {σ' τ' : Type} {S : σ' → τ' → Prop} {e : Edit σ' α} {f : Edit τ' β}
    (inner : Lockstep S A e f) {x : σ'} {y : τ'} (start : S x y) {back : σ' → σ} {other : τ' → τ}
    (returned : ∀ x y, S x y → R (back x) (other y)) :
    Lockstep R A (Edit.zoom x back e) (Edit.zoom y other f) := by
  intro _ _ l _
  have alike := inner x y l start
  unfold Edit.zoom
  dsimp only
  generalize e ⟨x, l⟩ = result at alike ⊢
  generalize f ⟨y, l⟩ = result' at alike ⊢
  cases alike with
  | ok same matched => exact .ok same (returned _ _ matched)
  | error matched => exact .error (returned _ _ matched)

theorem Lockstep.zoom? {σ' τ' : Type} {S : σ' → τ' → Prop} {e : Edit σ' α} {f : Edit τ' β}
    (inner : Lockstep S A e f) {x : Option σ'} {y : Option τ'} (start : Option.Rel S x y)
    {back : σ' → σ} {other : τ' → τ} (returned : ∀ x y, S x y → R (back x) (other y)) :
    Lockstep R (Option.Rel A) (Edit.zoom? x back e) (Edit.zoom? y other f) := by
  cases start with
  | none => exact .pure .none
  | some matched => exact (inner.zoom matched returned).answering fun _ _ => .some

theorem Lockstep.forM₂ {r : ε → γ → Prop} {xs : List ε} {ys : List γ} {e : ε → Edit σ PUnit}
    {f : γ → Edit τ PUnit} (related : List.Forall₂ r xs ys)
    (each : ∀ x y, r x y → Lockstep R Eq (e x) (f y)) : Lockstep R Eq (xs.forM e) (ys.forM f) := by
  induction related with
  | nil => exact .pure rfl
  | cons head _ ih => exact (each _ _ head).bind fun _ _ _ => ih

/-- Two computations on a ledger that charge it the same and make related things, or are refused
the same. -/
inductive AlikeCharges (A : α → β → Prop) :
    EStateM.Result Refusal Ledger α → EStateM.Result Refusal Ledger β → Prop where
  | ok {a : α} {b : β} {l : Ledger} : A a b → AlikeCharges A (.ok a l) (.ok b l)
  | error {r : Refusal} {l : Ledger} : AlikeCharges A (.error r l) (.error r l)

def Abreast (A : α → β → Prop) (c : Charging α) (d : Charging β) : Prop :=
  ∀ l, AlikeCharges A (c l) (d l)

theorem Abreast.pure {a : α} {b : β} (same : A a b) :
    Abreast A (Pure.pure a : Charging α) (Pure.pure b : Charging β) := fun _ => .ok same

theorem Abreast.bind {c : Charging α} {d : Charging β} {g : α → Charging γ} {h : β → Charging δ}
    (first : Abreast A c d) (next : ∀ a b, A a b → Abreast B (g a) (h b)) :
    Abreast B (c >>= g) (d >>= h) := by
  intro l
  have alike := first l
  change AlikeCharges B (EStateM.bind c g l) (EStateM.bind d h l)
  unfold EStateM.bind
  generalize c l = result at alike ⊢
  generalize d l = result' at alike ⊢
  cases alike with
  | ok same => exact next _ _ same _
  | error => exact .error

theorem Abreast.refl (c : Charging α) : Abreast Eq c c := by
  intro l
  cases c l with
  | ok a m => exact .ok rfl
  | error r m => exact .error

theorem Lockstep.charge (onRefusal : Refusal → Failure) {c : Charging α} {d : Charging β}
    (abreast : Abreast A c d) :
    Lockstep R A (Edit.charge onRefusal c) (Edit.charge onRefusal d) := by
  intro x y l start
  have alike := abreast l
  unfold Edit.charge
  dsimp only
  generalize c l = result at alike ⊢
  generalize d l = result' at alike ⊢
  cases alike with
  | ok same => exact .ok same start
  | error => exact .error start

theorem Lockstep.checkRoom (n : Nat) : Lockstep R Eq (checkRoom n) (checkRoom n) :=
  .charge _ (.refl _)

end Rules

section Runs

variable {op : Type}

/-- What the steps of a run leave, in order. Each step meets the ledger that stands with its
operation: arenas are shared, and others may have charged them in between. A failure does not end
the run. -/
def trace (run : op → Edit σ Answer) :
    List (Ledger × op) → σ → List (EStateM.Result Failure (Scene σ) Answer)
  | [], _ => []
  | (l, o) :: turns, x => run o ⟨x, l⟩ :: trace run turns (leftBy (run o ⟨x, l⟩))

def Promised (promise : op → σ → Prop) (run : op → Edit σ Answer) :
    List (Ledger × op) → σ → Prop
  | [], _ => True
  | (l, o) :: turns, x =>
    promise o x ∧ Promised promise run turns (leftBy (run o ⟨x, l⟩))

theorem trace_alike {R : σ → τ → Prop} {promise : op → σ → Prop} {run : op → Edit σ Answer}
    {other : op → Edit τ Answer}
    (step : ∀ o x y l, R x y → promise o x → Alike R Eq (run o ⟨x, l⟩) (other o ⟨y, l⟩))
    (turns : List (Ledger × op)) (x : σ) (y : τ) (start : R x y)
    (promised : Promised promise run turns x) :
    List.Forall₂ (Alike R Eq) (trace run turns x) (trace other turns y) := by
  induction turns generalizing x y with
  | nil => exact .nil
  | cons turn turns ih =>
    obtain ⟨l, o⟩ := turn
    obtain ⟨now, later⟩ := promised
    have alike := step o x y l start now
    exact .cons alike (ih _ _ alike.matched later)

theorem forall_of_alike {R : σ → τ → Prop} {P : σ → Prop} (known : ∀ x y, R x y → P x)
    {results : List (EStateM.Result Failure (Scene σ) Answer)}
    {others : List (EStateM.Result Failure (Scene τ) Answer)}
    (alike : List.Forall₂ (Alike R Eq) results others) : ∀ r ∈ results, P (leftBy r) :=
  ((List.forall₂_and_left _ _).mp (alike.imp fun _ _ step => ⟨known _ _ step.matched, step⟩)).1

end Runs

end DocTree
