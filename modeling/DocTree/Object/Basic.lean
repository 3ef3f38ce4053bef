import DocTree.Arena
import DocTree.Search

/-!
Objects whose members ascend by key. Keys compare by code point, which is the order of their UTF-8
bytes. Operations here do not look into the values.
-/

namespace DocTree

structure Member (α : Type) where
  key : String
  value : α
  deriving Inhabited

namespace Member

variable {α : Type}

def setValue (m : Member α) (value : α) : α × Member α := (m.value, { m with value })

end Member

def sortByKey {α : Type} (ms : List (Member α)) : List (Member α) :=
  ms.mergeSort fun a b => a.key ≤ b.key

structure Object (α : Type) where
  home : Home := .heap
  capacity : Nat := 0
  members : List (Member α) := []
  deriving Inhabited

namespace Object

variable {α : Type}

def empty (home : Home) : Object α := { home }

def withCapacity (home : Home) (capacity : Nat) : Charging (Object α) := do
  haveRoom capacity
  return { home, capacity }

def length (o : Object α) : Nat := o.members.length

/-- Puts other members in place. Room grows when it has to and is never given back. -/
def withMembers (o : Object α) (members : List (Member α)) : Object α :=
  { o with members, capacity := max o.capacity members.length }

/-- Orders members by key and keeps the first of every key. The room is that of all that came. -/
def ofMembers (home : Home) (ms : List (Member α)) : Object α :=
  { home, members := runHeads Member.key none (sortByKey ms), capacity := ms.length }

def copy (o : Object α) : Object α := { o with capacity := o.members.length }

def lowerBound (o : Object α) (start : Nat) (key : String) : Nat :=
  start + partitionPoint (·.key < key) (o.members.drop start)

def keyAt? (o : Object α) (pos : Nat) : Option String := o.members[pos]?.map (·.key)

def find? (o : Object α) (key : String) : Option Nat :=
  let pos := o.lowerBound 0 key
  if o.keyAt? pos = some key then some pos else none

/-- Where a search with a hint begins: at the hint if the key there is not above the one looked
for, since everything before it is then smaller; else at the front. -/
def searchStart (o : Object α) (hint : Nat) (key : String) : Nat :=
  match o.keyAt? hint with
  | some k => if k ≤ key then hint else 0
  | none => 0

def get? (o : Object α) (key : String) : Option α :=
  (o.find? key).bind fun pos => o.members[pos]?.map (·.value)

def insertAt (o : Object α) (pos : Nat) (m : Member α) : Object α :=
  o.withMembers (o.members.insertIdx pos m)

def assignAt (o : Object α) (pos : Nat) (value : α) : Object α :=
  { o with members := o.members.modify pos fun m => { m with value } }

/-- Adds members in any order. What is there already wins over what comes in, and the first of
several that come in wins over the later ones. -/
def insertRange (o : Object α) (incoming : List (Member α)) : Object α :=
  if incoming.isEmpty then o
  else
    { o with
      members := runHeads Member.key none (sortByKey (o.members ++ incoming))
      capacity := max o.capacity (o.members.length + incoming.length) }

/-- Adds members whose keys ascend and are all new: behind the others if they all come later,
else by merging the two runs into new room. -/
def insertSortedUnique (o : Object α) (incoming : List (Member α)) : Object α :=
  let appendable := match o.members.getLast?, incoming.head? with
    | some last, some first => decide (last.key < first.key)
    | _, _ => true
  if appendable then o.withMembers (o.members ++ incoming)
  else
    let members := o.members.merge incoming fun a b => a.key < b.key
    { o with members, capacity := members.length }

def ofSortedUnique (ms : List (Member α)) : Object α := insertSortedUnique {} ms

def byKey (o : Object α) : List (Member α) := o.members

end Object

end DocTree
