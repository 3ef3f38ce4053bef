import DocTree.Proofs.Index
import DocTree.Proofs.Operations

/-!
The plain account of an object that keeps the order of insertion: its members in a list that is
searched from the front.
-/

namespace DocTree

structure PlainList where
  home : Home := .heap
  members : List (Member Value) := []

namespace PlainList

def position? (p : PlainList) (key : String) : Option Nat :=
  p.members.findIdx? (·.key = key)

def find (p : PlainList) (key : String) : Nat := (p.position? key).getD p.members.length

def get? (p : PlainList) (key : String) : Option Value := lookup p.members key

def at? (p : PlainList) (i : Nat) : Except Error Value :=
  match p.members[i]? with
  | some m => .ok m.value
  | none => .error (.outOfRange i p.members.length)

def renew : ObjectOrigin → Charging PlainList
  | .empty home => return { home }
  | .withCapacity home capacity => do
    haveRoom capacity
    return { home }
  | .ofMembers home ms => return ⟨home, addAllNew Member.key [] (← adoptMembersIn home ms)⟩
  | .ofSortedUnique ms => return ⟨.heap, ms⟩

/-- A new key is put at `pos`. A known one keeps its position, and its value unless `overwrite`
is set. -/
def place (pos : Nat) (key : String) (v : Value) (overwrite : Bool) :
    Edit PlainList (Nat × Bool) := do
  let p ← Edit.subject
  match p.position? key with
  | some found =>
    if overwrite then
      let v ← Edit.orExhausted (v.adoptIn p.home)
      Edit.put { p with members := p.members.set found ⟨key, v⟩ }
    return (found, false)
  | none =>
    let v ← Edit.orExhausted (v.adoptIn p.home)
    Edit.put { p with members := p.members.take pos ++ ⟨key, v⟩ :: p.members.drop pos }
    return (pos, true)

def append (key : String) (v : Value) (overwrite : Bool) : Edit PlainList (Nat × Bool) := do
  place (← Edit.subject).members.length key v overwrite

def tryAppend (key : String) (v : Value) : Edit PlainList (Nat × Bool) := do
  append key (← Edit.orRefused (v.adoptIn (← Edit.subject).home)) true

def splice (hint : Nat) (key : String) (v : Value) (overwrite : Bool) : Edit PlainList Nat := do
  return (← place (min hint (← Edit.subject).members.length) key v overwrite).1

def appendAll (source : List (Member Value)) (overwrite : Bool) : Edit PlainList Unit :=
  source.forM fun m => discard (append m.key m.value overwrite)

/-- The members of a source behind one another from `hint` on: the running place moves on past a
member that was put there or stood there. -/
def spliceAll (hint : Nat) (source : List (Member Value)) (overwrite : Bool) :
    Edit PlainList Unit := do
  let start := min hint (← Edit.subject).members.length
  discard <| source.foldlM (fun pos m =>
    (fun placed => if placed = pos then pos + 1 else pos) <$>
      splice pos m.key m.value overwrite) start

def eraseAt (pos : Nat) : Edit PlainList (Member Value) := do
  let p ← Edit.subject
  match p.members[pos]? with
  | some m =>
    Edit.put { p with members := p.members.eraseIdx pos }
    return m
  | none => Edit.fault (.erasePastEnd pos p.members.length)

def erase (key : String) : Edit PlainList (Option Value) := do
  match (← Edit.subject).position? key with
  | some pos => return some (← eraseAt pos).value
  | none => return none

def eraseRange (low high : Bound) : Edit PlainList Unit := do
  let p ← Edit.subject
  let (start, stop) ← Edit.ofExcept (span low high p.members.length)
  Edit.put { p with members := p.members.take start ++ p.members.drop stop }

def extend (ms : List (Member Value)) : Edit PlainList Unit := do
  let p ← Edit.subject
  let ms ← Edit.orExhausted (adoptMembersIn p.home ms)
  Edit.put { p with members := addAllNew Member.key p.members ms }

def extendSortedUnique (ms : List (Member Value)) : Edit PlainList Unit := do
  let p ← Edit.subject
  let ms ← Edit.orExhausted (adoptMembersIn p.home ms)
  Edit.put { p with members := p.members ++ ms }

def assignAt (pos : Nat) (v : Value) : Edit PlainList Unit := do
  let p ← Edit.subject
  match p.members[pos]? with
  | some m => Edit.put { p with members := p.members.set pos ⟨m.key, v⟩ }
  | none => Edit.fail (.outOfRange pos p.members.length)

def assignKey (key : String) (v : Value) : Edit PlainList Bool := do
  let p ← Edit.subject
  match p.position? key with
  | some pos =>
    Edit.put { p with members := p.members.set pos ⟨key, v⟩ }
    return true
  | none => return false

def mapValues (f : String → Value → Value) : Edit PlainList Unit :=
  Edit.update fun p => { p with members := mapMembers f p.members }

def reserve (additional : Nat) : Edit PlainList Unit := do
  let p ← Edit.subject
  checkRoom (p.members.length + additional)
  Edit.put p

def run : ObjectOp (InsertionObject Value) → Edit PlainList Answer
  | .renew origin => done do Edit.put (← Edit.orExhausted (renew origin))
  | .insertOrAssign key v => do
    let (pos, isNew) ← append key v true
    return .placed pos isNew
  | .tryInsertOrAssign key v => do
    let (pos, isNew) ← tryAppend key v
    return .placed pos isNew
  | .tryEmplace key v => do
    let (pos, isNew) ← append key v false
    return .placed pos isNew
  | .insertOrAssignHint hint key v => return .position (← splice hint key v true)
  | .tryEmplaceHint hint key v => return .position (← splice hint key v false)
  | .erase key => return .value? (← erase key)
  | .eraseAt pos => return .member (← eraseAt pos)
  | .eraseRange low high => done (eraseRange low high)
  | .merge source => done (appendAll source.members false)
  | .mergeOrUpdate source => done (appendAll source.members true)
  | .mergeHint hint source => done (spliceAll hint source.members false)
  | .mergeOrUpdateHint hint source => done (spliceAll hint source.members true)
  | .extend ms => done (extend ms)
  | .extendSortedUnique ms => done (extendSortedUnique ms)
  | .assignAt pos v => done (assignAt pos v)
  | .assignKey key v => return .flag (← assignKey key v)
  | .assignEach f => done (mapValues f)
  | .clear => done (Edit.update fun p => { p with members := [] })
  | .reserve additional => done (reserve additional)
  | .shrinkToFit => done (mapValues fun _ v => v.shrinkToFit)

end PlainList

end DocTree
