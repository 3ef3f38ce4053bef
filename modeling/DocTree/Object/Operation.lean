import DocTree.Answer
import DocTree.InsertionObject.Edit
import DocTree.Object.Edit
import DocTree.Value.Room

namespace DocTree

/-- A container of members with distinct keys. -/
class MemberStore (O : Type) where
  empty : Home → O
  withCapacity : Home → Nat → Charging O
  ofMembers : Home → List (Member Value) → O
  ofMembersIn : Home → List (Member Value) → Charging O
  ofSortedUnique : List (Member Value) → O
  home : O → Home
  capacity : O → Nat
  members : O → List (Member Value)
  byKey : O → List (Member Value)
  find : O → String → Nat
  get? : O → String → Option Value
  at? : O → Nat → Except Error Value
  copy : O → O
  shrinkToFit : O → O
  isTight : O → Bool
  toValue : O → Charging Value
  insertOrAssign : String → Value → Edit O (Nat × Bool)
  tryInsertOrAssign : String → Value → Edit O (Nat × Bool)
  tryEmplace : String → Value → Edit O (Nat × Bool)
  insertOrAssignHint : Nat → String → Value → Edit O Nat
  tryEmplaceHint : Nat → String → Value → Edit O Nat
  erase : String → Edit O (Option Value)
  eraseAt : Nat → Edit O (Member Value)
  eraseRange : Bound → Bound → Edit O Unit
  editKey? {β : Type} : String → Edit Value β → Edit O (Option β)
  editAt {β : Type} : Nat → Edit Value β → Edit O β
  merge : O → Edit O Unit
  mergeOrUpdate : O → Edit O Unit
  mergeHint : Nat → O → Edit O Unit
  mergeOrUpdateHint : Nat → O → Edit O Unit
  extend : List (Member Value) → Edit O Unit
  extendSortedUnique : List (Member Value) → Edit O Unit
  clear : Edit O Unit
  reserve : Nat → Edit O Unit

instance : MemberStore (Object Value) where
  empty := Object.empty
  withCapacity := Object.withCapacity
  ofMembers := Object.ofMembers
  ofMembersIn := Object.ofMembersIn
  ofSortedUnique := Object.ofSortedUnique
  home := Object.home
  capacity := Object.capacity
  members := Object.members
  byKey := Object.byKey
  find := Object.find
  get? := Object.get?
  at? := Object.at?
  copy := Object.copy
  shrinkToFit := Object.shrinkToFit
  isTight := Object.isTight
  toValue o := return .ofObject o
  insertOrAssign := Object.insertOrAssign
  tryInsertOrAssign := Object.tryInsertOrAssign
  tryEmplace := Object.tryEmplace
  insertOrAssignHint := Object.insertOrAssignHint
  tryEmplaceHint := Object.tryEmplaceHint
  erase := Object.erase
  eraseAt := Object.eraseAt
  eraseRange := Object.eraseRange
  editKey? := Object.editKey?
  editAt := Object.editAt
  merge := Object.merge
  mergeOrUpdate := Object.mergeOrUpdate
  mergeHint := Object.mergeHint
  mergeOrUpdateHint := Object.mergeOrUpdateHint
  extend := Object.extend
  extendSortedUnique := Object.extendSortedUnique
  clear := Object.clear
  reserve := Object.reserve

instance : MemberStore (InsertionObject Value) where
  empty := InsertionObject.empty
  withCapacity := InsertionObject.withCapacity
  ofMembers := InsertionObject.ofMembers
  ofMembersIn := InsertionObject.ofMembersIn
  ofSortedUnique := InsertionObject.ofSortedUnique
  home := InsertionObject.home
  capacity := InsertionObject.capacity
  members := InsertionObject.members
  byKey := InsertionObject.byKey
  find := InsertionObject.find
  get? := InsertionObject.get?
  at? := InsertionObject.at?
  copy := InsertionObject.copy
  shrinkToFit := InsertionObject.shrinkToFit
  isTight := InsertionObject.isTight
  toValue := InsertionObject.toValue
  insertOrAssign := InsertionObject.insertOrAssign
  tryInsertOrAssign := InsertionObject.tryInsertOrAssign
  tryEmplace := InsertionObject.tryEmplace
  insertOrAssignHint := InsertionObject.insertOrAssignHint
  tryEmplaceHint := InsertionObject.tryEmplaceHint
  erase := InsertionObject.erase
  eraseAt := InsertionObject.eraseAt
  eraseRange := InsertionObject.eraseRange
  editKey? := InsertionObject.editKey?
  editAt := InsertionObject.editAt
  merge := InsertionObject.merge
  mergeOrUpdate := InsertionObject.mergeOrUpdate
  mergeHint := InsertionObject.mergeHint
  mergeOrUpdateHint := InsertionObject.mergeOrUpdateHint
  extend := InsertionObject.extend
  extendSortedUnique := InsertionObject.extendSortedUnique
  clear := InsertionObject.clear
  reserve := InsertionObject.reserve

inductive ObjectOrigin where
  | empty (home : Home)
  | withCapacity (home : Home) (capacity : Nat)
  | ofMembers (home : Home) (ms : List (Member Value))
  | ofSortedUnique (ms : List (Member Value))

def ObjectOrigin.build {O : Type} [MemberStore O] : ObjectOrigin → Charging O
  | empty home => return MemberStore.empty home
  | withCapacity home capacity => MemberStore.withCapacity home capacity
  | ofMembers home ms => MemberStore.ofMembersIn home ms
  | ofSortedUnique ms => return MemberStore.ofSortedUnique ms

inductive ObjectOp (O : Type) where
  | renew (origin : ObjectOrigin)
  | insertOrAssign (key : String) (v : Value)
  | tryInsertOrAssign (key : String) (v : Value)
  | tryEmplace (key : String) (v : Value)
  | insertOrAssignHint (hint : Nat) (key : String) (v : Value)
  | tryEmplaceHint (hint : Nat) (key : String) (v : Value)
  | erase (key : String)
  | eraseAt (pos : Nat)
  | eraseRange (low high : Bound)
  | merge (source : O)
  | mergeOrUpdate (source : O)
  | mergeHint (hint : Nat) (source : O)
  | mergeOrUpdateHint (hint : Nat) (source : O)
  | extend (ms : List (Member Value))
  | extendSortedUnique (ms : List (Member Value))
  | assignAt (pos : Nat) (v : Value)
  | assignKey (key : String) (v : Value)
  | assignEach (f : String → Value → Value)
  | clear
  | reserve (additional : Nat)
  | shrinkToFit

namespace ObjectOp

variable {O : Type} [MemberStore O]

def assignAll (f : String → Value → Value) : Edit O Unit := do
  let o ← Edit.subject
  (MemberStore.members o).zipIdx.forM fun (m, i) =>
    MemberStore.editAt i (Edit.update (f m.key))

def run : ObjectOp O → Edit O Answer
  | renew origin => done do Edit.put (← Edit.orExhausted origin.build)
  | insertOrAssign key v => do
    let (pos, isNew) ← MemberStore.insertOrAssign key v
    return .placed pos isNew
  | tryInsertOrAssign key v => do
    let (pos, isNew) ← MemberStore.tryInsertOrAssign key v
    return .placed pos isNew
  | tryEmplace key v => do
    let (pos, isNew) ← MemberStore.tryEmplace key v
    return .placed pos isNew
  | insertOrAssignHint hint key v => return .position (← MemberStore.insertOrAssignHint hint key v)
  | tryEmplaceHint hint key v => return .position (← MemberStore.tryEmplaceHint hint key v)
  | erase key => return .value? (← MemberStore.erase key)
  | eraseAt pos => return .member (← MemberStore.eraseAt pos)
  | eraseRange low high => done (MemberStore.eraseRange low high)
  | merge source => done (MemberStore.merge source)
  | mergeOrUpdate source => done (MemberStore.mergeOrUpdate source)
  | mergeHint hint source => done (MemberStore.mergeHint hint source)
  | mergeOrUpdateHint hint source => done (MemberStore.mergeOrUpdateHint hint source)
  | extend ms => done (MemberStore.extend ms)
  | extendSortedUnique ms => done (MemberStore.extendSortedUnique ms)
  | assignAt pos v => done (MemberStore.editAt pos (Edit.put v))
  | assignKey key v => return .flag (← MemberStore.editKey? key (Edit.put v)).isSome
  | assignEach f => done (assignAll f)
  | clear => done MemberStore.clear
  | reserve additional => done (MemberStore.reserve additional)
  | shrinkToFit => done (Edit.update MemberStore.shrinkToFit)

end ObjectOp

end DocTree
