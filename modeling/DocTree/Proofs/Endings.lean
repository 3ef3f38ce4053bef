import DocTree.Proofs.Readings

namespace DocTree

variable {σ τ α β ε : Type}

/-- The edit succeeds and leaves a subject with `Q`, unless it is `away` from the heap and runs out
of an arena. -/
inductive Ends (away : Prop) (Q : σ → Prop) :
    EStateM.Result Failure (Scene σ) α → Prop where
  | ok {a : α} {y : σ} {l : Ledger} : Q y → Ends away Q (.ok a ⟨y, l⟩)
  | exhausted {bytes : Nat} {s : Scene σ} : away → Ends away Q (.error (.exhausted bytes) s)

section Rules

variable {away : Prop} {P Q : σ → Prop}

theorem Ends.imp {r : EStateM.Result Failure (Scene σ) α} {far : Prop} (ends : Ends away P r)
    (further : away → far) (weaker : ∀ y, P y → Q y) : Ends far Q r := by
  cases ends with
  | ok held => exact .ok (weaker _ held)
  | exhausted gone => exact .exhausted (further gone)

theorem Ends.and {r : EStateM.Result Failure (Scene σ) α} (first : Ends away P r)
    (second : Ends away Q r) : Ends away (fun y => P y ∧ Q y) r := by
  cases first with
  | ok held =>
    cases second with
    | ok also => exact .ok ⟨held, also⟩
  | exhausted gone => exact .exhausted gone

theorem Ends.bind {e : Edit σ α} {g : α → Edit σ β} {s : Scene σ} (first : Ends away P (e s))
    (next : ∀ a y l, P y → Ends away Q (g a ⟨y, l⟩)) : Ends away Q ((e >>= g) s) := by
  change Ends away Q (EStateM.bind e g s)
  unfold EStateM.bind
  generalize e s = result at first ⊢
  cases first with
  | ok held => exact next _ _ _ held
  | exhausted gone => exact .exhausted gone

theorem Ends.discard {e : Edit σ α} {s : Scene σ} (ends : Ends away Q (e s)) :
    Ends away Q ((discard e : Edit σ Unit) s) :=
  ends.bind fun _ _ _ held => .ok held

theorem Ends.charge {home : Home} {c : Charging ε} {a : ε} (gives : Gives home c a)
    {g : ε → Edit σ α} {x : σ} {l : Ledger}
    (next : ∀ l', Ends (home ≠ .heap) Q (g a ⟨x, l'⟩)) :
    Ends (home ≠ .heap) Q ((Edit.orExhausted c >>= g) ⟨x, l⟩) := by
  change Ends _ Q (EStateM.bind _ g _)
  unfold EStateM.bind Edit.orExhausted Edit.charge
  rcases gives l with ⟨l', given⟩ | ⟨gone, bytes, l', refused⟩
  · simpa only [given] using next l'
  · simpa only [refused] using .exhausted gone

theorem Ends.zoom {Q : τ → Prop} {e : Edit τ α} {part : τ} {back : τ → σ} {x : σ} {l : Ledger}
    (ends : Ends away Q (e ⟨part, l⟩)) :
    Ends away (fun y => ∃ p, Q p ∧ y = back p) (Edit.zoom part back e ⟨x, l⟩) := by
  unfold Edit.zoom
  dsimp only
  generalize e ⟨part, l⟩ = result at ends ⊢
  cases ends with
  | ok held => exact .ok ⟨_, held, rfl⟩
  | exhausted gone => exact .exhausted gone

theorem Alike.ends {Q : τ → Prop} {R : σ → τ → Prop} {A : α → β → Prop}
    {r : EStateM.Result Failure (Scene σ) α} {q : EStateM.Result Failure (Scene τ) β}
    (alike : Alike R A r q) (ends : Ends away Q q) : Ends away (fun x => ∃ y, R x y ∧ Q y) r := by
  cases ends with
  | ok held =>
    cases alike with
    | ok _ matched => exact .ok ⟨_, matched, held⟩
  | exhausted gone =>
    cases alike with
    | error _ => exact .exhausted gone

theorem Outcome.ends {r : Reader σ} {x : σ} {after : String → Option Value} {tells : α → Prop}
    {result : EStateM.Result Failure (Scene σ) α} (outcome : Outcome r x after tells result) :
    Ends (r.home x ≠ .heap)
      (fun y => r.Valid y ∧ r.home y = r.home x ∧ ∀ key, r.value? y key = after key) result := by
  cases outcome with
  | ok valid home values _ => exact .ok ⟨valid, home, values⟩
  | exhausted gone => exact .exhausted gone

end Rules

end DocTree
