import DocTree.Failure
import DocTree.Value.Adopt

/-!
Edits: computations that change a subject in place and charge arenas. What an edit has changed
before it fails stays changed, in the subject and in the ledger.
-/

namespace DocTree

/-- A refused copy is an error. Room that nobody can have is a fault. -/
def Refusal.reported : Refusal → Failure
  | copy bytes => .error (.refused bytes)
  | room => .fault .noRoom

/-- A refused copy exhausts an operation that has no way to report it. -/
def Refusal.unreported : Refusal → Failure
  | copy bytes => .exhausted bytes
  | room => .fault .noRoom

structure Scene (σ : Type) where
  subject : σ
  ledger : Ledger

abbrev Edit (σ : Type) := EStateM Failure (Scene σ)

namespace Edit

variable {σ τ α : Type}

def subject : Edit σ σ := return (← get).subject

def update (f : σ → σ) : Edit σ Unit := modify fun s => { s with subject := f s.subject }

def put (x : σ) : Edit σ Unit := update fun _ => x

def fail (e : Error) : Edit σ α := throw (.error e)

def fault (f : Fault) : Edit σ α := throw (.fault f)

def charge (onRefusal : Refusal → Failure) (c : Charging α) : Edit σ α := fun s =>
  match c s.ledger with
  | .ok x l => .ok x { s with ledger := l }
  | .error r l => .error (onRefusal r) { s with ledger := l }

def orExhausted (c : Charging α) : Edit σ α := charge Refusal.unreported c

def orRefused (c : Charging α) : Edit σ α := charge Refusal.reported c

/-- Edits a part of the subject and puts it back, also when the edit fails. -/
def zoom (part : τ) (putBack : τ → σ) (e : Edit τ α) : Edit σ α := fun s =>
  match e ⟨part, s.ledger⟩ with
  | .ok x t => .ok x ⟨putBack t.subject, t.ledger⟩
  | .error f t => .error f ⟨putBack t.subject, t.ledger⟩

def zoom? (part : Option τ) (putBack : τ → σ) (e : Edit τ α) : Edit σ (Option α) :=
  match part with
  | none => return none
  | some p => some <$> zoom p putBack e

/-- Edits all parts, one after another. Those behind a failure stay as they were. -/
def onAll (e : Edit τ Unit) : Edit (List τ) Unit := fun s => go [] s.ledger s.subject
where
  go (edited : List τ) (l : Ledger) : List τ → EStateM.Result Failure (Scene (List τ)) Unit
    | [] => .ok () ⟨edited.reverse, l⟩
    | x :: xs =>
      match e ⟨x, l⟩ with
      | .ok _ t => go (t.subject :: edited) t.ledger xs
      | .error f t => .error f ⟨edited.reverse ++ t.subject :: xs, t.ledger⟩

def ofExcept (r : Except Fault α) : Edit σ α :=
  match r with
  | .ok x => return x
  | .error f => fault f

end Edit

def checkRoom {σ : Type} (n : Nat) : Edit σ Unit := Edit.orExhausted (haveRoom n)

end DocTree
