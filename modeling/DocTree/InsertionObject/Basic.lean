import DocTree.Object.Basic
import DocTree.Span

/-!
Objects that remember the order in which their members came. Beside the members stands an index:
their positions, arranged so that the keys ascend. Operations here do not look into the values.
-/

namespace DocTree

structure InsertionObject (α : Type) where
  home : Home := .heap
  capacity : Nat := 0
  members : List (Member α) := []
  index : List Nat := []
  deriving Inhabited

namespace InsertionObject

variable {α : Type}

def empty (home : Home) : InsertionObject α := { home }

def withCapacity (home : Home) (capacity : Nat) : Charging (InsertionObject α) := do
  haveRoom capacity
  return { home, capacity }

def length (o : InsertionObject α) : Nat := o.members.length

def copy (o : InsertionObject α) : InsertionObject α :=
  { o with capacity := o.members.length }

def keyAt (o : InsertionObject α) (pos : Nat) : String :=
  (o.members[pos]?.map (·.key)).getD ""

def indexLowerBound (o : InsertionObject α) (key : String) : Nat :=
  partitionPoint (fun pos => o.keyAt pos < key) o.index

def find? (o : InsertionObject α) (key : String) : Option Nat :=
  match o.index[o.indexLowerBound key]? with
  | some pos => if o.keyAt pos = key then some pos else none
  | none => none

def get? (o : InsertionObject α) (key : String) : Option α :=
  (o.find? key).bind fun pos => o.members[pos]?.map (·.value)

/-- Positions with their keys in ascending order, equal keys in the order of the members. -/
def sortedPositions (ms : List (Member α)) : List (Member α × Nat) :=
  ms.zipIdx.mergeSort fun a b => a.1.key ≤ b.1.key

def buildIndex (ms : List (Member α)) : List Nat := (sortedPositions ms).map (·.2)

def rebuild (o : InsertionObject α) (members : List (Member α)) : InsertionObject α :=
  { o with members, index := buildIndex members, capacity := max o.capacity members.length }

/-- The members at the positions in `keep`, which ascend. The gaps are removed from the back, so
that positions not yet visited stay valid. -/
def dropGaps (keep : List Nat) (ms : List (Member α)) : List (Member α) :=
  let (rest, stop) := keep.foldr
    (fun pos (ms, stop) => (ms.take (pos + 1) ++ ms.drop stop, pos)) (ms, ms.length)
  rest.drop stop

/-- Removes every member whose key occurs at a lower position. The first slot of each run of
equal keys in the sorted index holds the lowest position. -/
def dedup (o : InsertionObject α) (ms : List (Member α)) : InsertionObject α :=
  let firsts := (runHeads (·.1.key) none (sortedPositions ms)).map (·.2)
  let o := { o with members := ms, index := firsts, capacity := max o.capacity ms.length }
  if firsts.length = ms.length then o else o.rebuild (dropGaps (firsts.mergeSort (· ≤ ·)) ms)

def ofMembers (home : Home) (ms : List (Member α)) : InsertionObject α :=
  dedup { home } ms

/-- Splices in a member with a new key. Positions from there on move up by one, and the new
position enters the index where its key belongs. -/
def insertAt (o : InsertionObject α) (pos : Nat) (m : Member α) : InsertionObject α :=
  let slot := o.indexLowerBound m.key
  let moved := if pos < o.members.length then
      o.index.map fun p => if pos ≤ p then p + 1 else p
    else o.index
  { o with
    members := o.members.insertIdx pos m
    index := moved.insertIdx slot pos
    capacity := max o.capacity (o.members.length + 1) }

def assignAt (o : InsertionObject α) (pos : Nat) (value : α) : InsertionObject α :=
  { o with members := o.members.modify pos fun m => { m with value } }

/-- Removes the members at `start ≤ i < stop`. Their positions leave the index first, then the
later ones move down. -/
def removeSpan (o : InsertionObject α) (start stop : Nat) : InsertionObject α :=
  { o with
    members := eraseSpan o.members start stop
    index := (o.index.filter fun p => p < start || stop ≤ p).map
      fun p => if stop ≤ p then p - (stop - start) else p }

/-- Adds members behind the others. What is there already wins over what comes in, and the first
of several that come in wins over the later ones. -/
def insertRange (o : InsertionObject α) (incoming : List (Member α)) : InsertionObject α :=
  if incoming.isEmpty then o else o.dedup (o.members ++ incoming)

def insertSortedUnique (o : InsertionObject α) (incoming : List (Member α)) :
    InsertionObject α :=
  o.rebuild (o.members ++ incoming)

def ofSortedUnique (ms : List (Member α)) : InsertionObject α := insertSortedUnique {} ms

def byKey (o : InsertionObject α) : List (Member α) :=
  o.index.filterMap (o.members[·]?)

end InsertionObject

end DocTree
