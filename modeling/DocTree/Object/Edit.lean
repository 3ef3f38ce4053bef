import DocTree.Edit
import DocTree.Object.Basic
import DocTree.Span

/-!
Editing an object that is ordered by key. What is inserted is adopted by the home of the object;
what is written in place keeps the home it has. A value that would not be stored is not adopted,
except in bulk insertion.
-/

namespace DocTree.Object

variable {β : Type}

/-- Places a member where its key belongs, at `pos`. A key that is there already keeps its value
unless `overwrite` is set. Answers the position and whether the key was new. -/
def place (pos : Nat) (key : String) (v : Value) (overwrite : Bool) :
    Edit (Object Value) (Nat × Bool) := do
  let o ← Edit.subject
  if o.keyAt? pos = some key then
    if overwrite then
      let v ← Edit.orExhausted (v.adoptIn o.home)
      Edit.update (·.assignAt pos v)
    return (pos, false)
  else
    let v ← Edit.orExhausted (v.adoptIn o.home)
    Edit.update (·.insertAt pos ⟨key, v⟩)
    return (pos, true)

def insertOrAssign (key : String) (v : Value) : Edit (Object Value) (Nat × Bool) := do
  place ((← Edit.subject).lowerBound 0 key) key v true

def tryEmplace (key : String) (v : Value) : Edit (Object Value) (Nat × Bool) := do
  place ((← Edit.subject).lowerBound 0 key) key v false

/-- `insertOrAssign` with a guess at the position. A wrong guess only costs time. -/
def insertOrAssignHint (hint : Nat) (key : String) (v : Value) : Edit (Object Value) Nat := do
  let o ← Edit.subject
  return (← place (o.lowerBound (o.searchStart hint key) key) key v true).1

def tryEmplaceHint (hint : Nat) (key : String) (v : Value) : Edit (Object Value) Nat := do
  let o ← Edit.subject
  return (← place (o.lowerBound (o.searchStart hint key) key) key v false).1

def tryInsertOrAssign (key : String) (v : Value) : Edit (Object Value) (Nat × Bool) := do
  insertOrAssign key (← Edit.orRefused (v.adoptIn (← Edit.subject).home))

def merge (source : Object Value) : Edit (Object Value) Unit :=
  source.members.forM fun m => discard (tryEmplace m.key m.value)

def mergeOrUpdate (source : Object Value) : Edit (Object Value) Unit :=
  source.members.forM fun m => discard (insertOrAssign m.key m.value)

/-- `merge` where each member starts its search at the place of the one before. -/
def mergeHint (hint : Nat) (source : Object Value) : Edit (Object Value) Unit :=
  discard (source.members.foldlM (fun hint m => tryEmplaceHint hint m.key m.value) hint)

def mergeOrUpdateHint (hint : Nat) (source : Object Value) : Edit (Object Value) Unit :=
  discard (source.members.foldlM (fun hint m => insertOrAssignHint hint m.key m.value) hint)

def eraseAt (pos : Nat) : Edit (Object Value) (Member Value) := do
  let o ← Edit.subject
  match o.members[pos]? with
  | some m =>
    Edit.put { o with members := o.members.eraseIdx pos }
    return m
  | none => Edit.fault .outOfBounds

def erase (key : String) : Edit (Object Value) (Option Value) := do
  match (← Edit.subject).find? key with
  | some pos => return some (← eraseAt pos).value
  | none => return none

def eraseRange (low high : Bound) : Edit (Object Value) Unit := do
  let o ← Edit.subject
  let (start, stop) ← Edit.ofExcept (span low high o.length)
  Edit.put { o with members := eraseSpan o.members start stop }

def settle (ms : List (Member Value)) : Edit (Object Value) (List (Member Value)) := do
  Edit.orExhausted (adoptMembersIn (← Edit.subject).home ms)

def extend (ms : List (Member Value)) : Edit (Object Value) Unit := do
  let ms ← settle ms
  Edit.update (·.insertRange ms)

def extendSortedUnique (ms : List (Member Value)) : Edit (Object Value) Unit := do
  let ms ← settle ms
  Edit.update (·.insertSortedUnique ms)

def clear : Edit (Object Value) Unit := Edit.update fun o => { o with members := [] }

def reserve (additional : Nat) : Edit (Object Value) Unit := do
  let o ← Edit.subject
  checkRoom (o.length + additional)
  Edit.put { o with capacity := max o.capacity (o.length + additional) }

def at? (o : Object Value) (i : Nat) : Except Error Value :=
  match o.members[i]? with
  | some m => .ok m.value
  | none => .error (.outOfRange i o.length)

def editValue? (i : Nat) (e : Edit Value β) : Edit (Object Value) (Option β) := do
  let o ← Edit.subject
  Edit.zoom? (o.members[i]?.map (·.value)) (fun v => o.assignAt i v) e

def editAt (i : Nat) (e : Edit Value β) : Edit (Object Value) β := do
  let o ← Edit.subject
  match ← editValue? i e with
  | some x => return x
  | none => Edit.fail (.outOfRange i o.length)

def editKey? (key : String) (e : Edit Value β) : Edit (Object Value) (Option β) := do
  match (← Edit.subject).find? key with
  | some pos => editValue? pos e
  | none => return none

def find (o : Object Value) (key : String) : Nat := (o.find? key).getD o.length

def ofMembersIn (home : Home) (ms : List (Member Value)) : Charging (Object Value) :=
  return ofMembers home (← adoptMembersIn home ms)

end DocTree.Object
