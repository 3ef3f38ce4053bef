import DocTree.Edit
import DocTree.Sequence.Basic
import DocTree.Span
import DocTree.Value.Order

/-!
Editing a sequence of values. A position past the end is an error for `at?` and `editAt`, and a
fault elsewhere.
-/

namespace DocTree.Sequence

variable {β : Type}

def setItems (items : List Value) : Edit (Sequence Value) Unit :=
  Edit.update (·.withItems items)

def settle (vs : List Value) : Edit (Sequence Value) (List Value) := do
  Edit.orExhausted (Value.adoptAllIn (← Edit.subject).home vs)

def push (v : Value) : Edit (Sequence Value) Unit := do
  let v ← Edit.orExhausted (v.adoptIn (← Edit.subject).home)
  Edit.update fun s => s.withItems (s.items ++ [v])

/-- Like `push`, but reports an arena that refuses. The items are untouched then. -/
def tryPush (v : Value) : Edit (Sequence Value) Unit := do
  let v ← Edit.orRefused (v.adoptIn (← Edit.subject).home)
  Edit.update fun s => s.withItems (s.items ++ [v])

def item? (s : Sequence Value) (i : Nat) : Option Value := s.items[i]?

def at? (s : Sequence Value) (i : Nat) : Except Error Value :=
  match s.items[i]? with
  | some v => .ok v
  | none => .error (.outOfRange i s.length)

def editItem? (i : Nat) (e : Edit Value β) : Edit (Sequence Value) (Option β) := do
  let s ← Edit.subject
  Edit.zoom? s.items[i]? (fun v => { s with items := s.items.set i v }) e

def editAt (i : Nat) (e : Edit Value β) : Edit (Sequence Value) β := do
  let s ← Edit.subject
  match ← editItem? i e with
  | some x => return x
  | none => Edit.fail (.outOfRange i s.length)

def editItem (i : Nat) (e : Edit Value β) : Edit (Sequence Value) β := do
  match ← editItem? i e with
  | some x => return x
  | none => Edit.fault .outOfBounds

def emplaceBack (v : Value) (e : Edit Value β) : Edit (Sequence Value) β := do
  push v
  editItem ((← Edit.subject).length - 1) e

def pop : Edit (Sequence Value) (Option Value) := do
  let s ← Edit.subject
  Edit.put { s with items := s.items.dropLast }
  return s.items.getLast?

/-- Inserts before position `pos` and answers the position. The value is adopted before the
position is looked at. -/
def insert (pos : Nat) (v : Value) : Edit (Sequence Value) Nat := do
  let v ← Edit.orExhausted (v.adoptIn (← Edit.subject).home)
  let s ← Edit.subject
  if s.length < pos then Edit.fault .outOfBounds
  setItems (s.items.insertIdx pos v)
  return pos

/-- Inserts several values before position `pos`. The position is looked at first. -/
def insertRange (pos : Nat) (vs : List Value) : Edit (Sequence Value) Nat := do
  let s ← Edit.subject
  if s.length < pos then Edit.fault (.insertPastEnd pos s.length)
  let vs ← settle vs
  setItems (s.items.take pos ++ vs ++ s.items.drop pos)
  return pos

def erase (pos : Nat) : Edit (Sequence Value) Value := do
  let s ← Edit.subject
  match s.items[pos]? with
  | some v =>
    Edit.put { s with items := s.items.eraseIdx pos }
    return v
  | none => Edit.fault .outOfBounds

def eraseRange (low high : Bound) : Edit (Sequence Value) Unit := do
  let s ← Edit.subject
  let (start, stop) ← Edit.ofExcept (span low high s.length)
  Edit.put { s with items := eraseSpan s.items start stop }

/-- Cuts the sequence to `n` elements or fills it up with copies of a value. The value is adopted
once, whether or not it is needed. -/
def resize (n : Nat) (v : Value) : Edit (Sequence Value) Unit := do
  let v ← Edit.orExhausted (v.adoptIn (← Edit.subject).home)
  checkRoom n
  let s ← Edit.subject
  setItems (s.items.take n ++ List.replicate (n - s.length) v)

/-- Puts `n` values in front of a list, from the back to the front. The value for each place is
made just before it is adopted. -/
def consMade (home : Home) (make : Nat → Charging Value) : Nat → Nat → Edit (List Value) Unit
  | 0, _ => return
  | n + 1, i => do
    let v ← Edit.orExhausted do (← make i).adoptIn home
    Edit.update (v :: ·)
    consMade home make n (i + 1)

/-- Cuts the sequence to `n` elements or fills it up with values made one by one. Those made
before a failure stay. -/
def resizeWith (n : Nat) (make : Nat → Charging Value) : Edit (Sequence Value) Unit := do
  checkRoom n
  let s ← Edit.subject
  Edit.zoom [] (fun made => s.withItems (s.items.take n ++ made.reverse))
    (consMade s.home make (n - s.length) 0)

def editEach (e : Edit Value Unit) : Edit (Sequence Value) Unit := do
  let s ← Edit.subject
  Edit.zoom s.items (fun items => { s with items }) (Edit.onAll e)

def clear : Edit (Sequence Value) Unit := Edit.update fun s => { s with items := [] }

def extend (vs : List Value) : Edit (Sequence Value) Unit := do
  let vs ← settle vs
  Edit.update fun s => s.withItems (s.items ++ vs)

def reserve (additional : Nat) : Edit (Sequence Value) Unit := do
  let s ← Edit.subject
  checkRoom (s.length + additional)
  Edit.put { s with capacity := max s.capacity (s.length + additional) }

def sorted (s : Sequence Value) : Sequence Value :=
  { s with items := s.items.mergeSort fun a b => a.compare b ≠ .gt }

def sort : Edit (Sequence Value) Unit := Edit.update sorted

def reverse : Edit (Sequence Value) Unit :=
  Edit.update fun s => { s with items := s.items.reverse }

end DocTree.Sequence
