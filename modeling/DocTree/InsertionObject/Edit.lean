import DocTree.Edit
import DocTree.InsertionObject.Basic
import DocTree.Object.Edit

/-!
Editing an object that keeps the order of insertion. A hint is the place for a new member, the end
if it lies past it. What is inserted is adopted by the home of the object; what is written in
place keeps the home it has.
-/

namespace DocTree.InsertionObject

variable {β : Type}

/-- Places a member with a new key at `pos`. A key that is there already stays where it is and
keeps its value unless `overwrite` is set. Answers the position and whether the key was new. -/
def place (pos : Nat) (key : String) (v : Value) (overwrite : Bool) :
    Edit (InsertionObject Value) (Nat × Bool) := do
  let o ← Edit.subject
  match o.find? key with
  | some found =>
    if overwrite then
      let v ← Edit.orExhausted (v.adoptIn o.home)
      Edit.update (·.assignAt found v)
    return (found, false)
  | none =>
    let v ← Edit.orExhausted (v.adoptIn o.home)
    Edit.update (·.insertAt pos ⟨key, v⟩)
    return (pos, true)

def insertOrAssign (key : String) (v : Value) : Edit (InsertionObject Value) (Nat × Bool) := do
  place (← Edit.subject).length key v true

def tryEmplace (key : String) (v : Value) : Edit (InsertionObject Value) (Nat × Bool) := do
  place (← Edit.subject).length key v false

def insertOrAssignHint (hint : Nat) (key : String) (v : Value) :
    Edit (InsertionObject Value) Nat := do
  return (← place (min hint (← Edit.subject).length) key v true).1

def tryEmplaceHint (hint : Nat) (key : String) (v : Value) :
    Edit (InsertionObject Value) Nat := do
  return (← place (min hint (← Edit.subject).length) key v false).1

def tryInsertOrAssign (key : String) (v : Value) :
    Edit (InsertionObject Value) (Nat × Bool) := do
  insertOrAssign key (← Edit.orRefused (v.adoptIn (← Edit.subject).home))

def merge (source : InsertionObject Value) : Edit (InsertionObject Value) Unit :=
  source.members.forM fun m => discard (tryEmplace m.key m.value)

def mergeOrUpdate (source : InsertionObject Value) : Edit (InsertionObject Value) Unit :=
  source.members.forM fun m => discard (insertOrAssign m.key m.value)

/-- Where the next member of a hinted merge goes: past the last one if that was put, or already
stood, in the running place. -/
def nextPlace (running placed : Nat) : Nat := if placed = running then running + 1 else running

def mergeHint (hint : Nat) (source : InsertionObject Value) :
    Edit (InsertionObject Value) Unit := do
  let start := min hint (← Edit.subject).length
  discard <| source.members.foldlM
    (fun pos m => nextPlace pos <$> tryEmplaceHint pos m.key m.value) start

def mergeOrUpdateHint (hint : Nat) (source : InsertionObject Value) :
    Edit (InsertionObject Value) Unit := do
  let start := min hint (← Edit.subject).length
  discard <| source.members.foldlM
    (fun pos m => nextPlace pos <$> insertOrAssignHint pos m.key m.value) start

def eraseAt (pos : Nat) : Edit (InsertionObject Value) (Member Value) := do
  let o ← Edit.subject
  match o.members[pos]? with
  | some m =>
    Edit.put (o.removeSpan pos (pos + 1))
    return m
  | none => Edit.fault (.erasePastEnd pos o.length)

def erase (key : String) : Edit (InsertionObject Value) (Option Value) := do
  match (← Edit.subject).find? key with
  | some pos => return some (← eraseAt pos).value
  | none => return none

def eraseRange (low high : Bound) : Edit (InsertionObject Value) Unit := do
  let o ← Edit.subject
  let (start, stop) ← Edit.ofExcept (span low high o.length)
  Edit.put (o.removeSpan start stop)

def settle (ms : List (Member Value)) :
    Edit (InsertionObject Value) (List (Member Value)) := do
  Edit.orExhausted (adoptMembersIn (← Edit.subject).home ms)

def extend (ms : List (Member Value)) : Edit (InsertionObject Value) Unit := do
  let ms ← settle ms
  Edit.update (·.insertRange ms)

def extendSortedUnique (ms : List (Member Value)) : Edit (InsertionObject Value) Unit := do
  let ms ← settle ms
  Edit.update (·.insertSortedUnique ms)

def clear : Edit (InsertionObject Value) Unit :=
  Edit.update fun o => { o with members := [], index := [] }

def reserve (additional : Nat) : Edit (InsertionObject Value) Unit := do
  let o ← Edit.subject
  checkRoom (o.length + additional)
  Edit.put { o with capacity := max o.capacity (o.length + additional) }

def at? (o : InsertionObject Value) (i : Nat) : Except Error Value :=
  match o.members[i]? with
  | some m => .ok m.value
  | none => .error (.outOfRange i o.length)

def editValue? (i : Nat) (e : Edit Value β) : Edit (InsertionObject Value) (Option β) := do
  let o ← Edit.subject
  Edit.zoom? (o.members[i]?.map (·.value)) (fun v => o.assignAt i v) e

def editAt (i : Nat) (e : Edit Value β) : Edit (InsertionObject Value) β := do
  let o ← Edit.subject
  match ← editValue? i e with
  | some x => return x
  | none => Edit.fail (.outOfRange i o.length)

def editKey? (key : String) (e : Edit Value β) : Edit (InsertionObject Value) (Option β) := do
  match (← Edit.subject).find? key with
  | some pos => editValue? pos e
  | none => return none

def find (o : InsertionObject Value) (key : String) : Nat := (o.find? key).getD o.length

def ofMembersIn (home : Home) (ms : List (Member Value)) : Charging (InsertionObject Value) :=
  return ofMembers home (← adoptMembersIn home ms)

/-- The value with these members. A value lists them by key, in the same home. -/
def toValue (o : InsertionObject Value) : Charging Value :=
  return .ofObject (← Object.ofMembersIn o.home o.members)

end DocTree.InsertionObject
