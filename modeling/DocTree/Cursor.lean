import DocTree.Failure
import DocTree.Object.Basic

/-!
Cursors: positions in the entries of a container. Moving wraps around, and whether there is an
entry at a position is only looked at on access.
-/

namespace DocTree

variable {α : Type}

def offset (pos : UInt64) (n : Int64) : UInt64 := pos + n.toUInt64

def entry? (items : List α) (pos : UInt64) : Option α := items[pos.toNat]?

def entry (items : List α) (pos : UInt64) : Except Fault α :=
  match entry? items pos with
  | some x => .ok x
  | none => .error .outOfBounds

structure Cursor (α : Type) where
  items : List α
  pos : UInt64

namespace Cursor

def isEnd (c : Cursor α) : Bool := c.items.length ≤ c.pos.toNat
def get? (c : Cursor α) : Option α := entry? c.items c.pos
def get (c : Cursor α) : Except Fault α := entry c.items c.pos

def peek (c : Cursor α) (n : Int64) : Except Fault α := entry c.items (offset c.pos n)

def add (c : Cursor α) (n : Int64) : Cursor α := { c with pos := offset c.pos n }
def sub (c : Cursor α) (n : Int64) : Cursor α := { c with pos := offset c.pos (-n) }
def inc (c : Cursor α) : Cursor α := c.add 1
def dec (c : Cursor α) : Cursor α := c.sub 1

def distance (c d : Cursor α) : Int64 := c.pos.toInt64 - d.pos.toInt64

def equals (c d : Cursor α) : Bool := c.pos = d.pos
def compare (c d : Cursor α) : Ordering := Ord.compare c.pos.toNat d.pos.toNat

/-- The entry under the cursor, and the cursor one step on. The end is not passed. -/
def next (c : Cursor α) : Option α × Cursor α :=
  match c.get? with
  | some x => (some x, { c with pos := c.pos + 1 })
  | none => (none, c)

/-- Passes `n` entries and takes the next one. It stops where the entries do. -/
def nth (c : Cursor α) : Nat → Option α × Cursor α
  | 0 => c.next
  | n + 1 =>
    match c.next with
    | (some _, d) => d.nth n
    | (none, d) => (none, d)

def remaining (c : Cursor α) : Nat := c.items.length - c.pos.toNat

def rest (c : Cursor α) : List α := c.items.drop (min c.pos.toNat c.items.length)

def walk (c : Cursor α) : List α := go c.remaining c
where
  go : Nat → Cursor α → List α
    | 0, _ => []
    | n + 1, c =>
      match c.next with
      | (some x, d) => x :: go n d
      | (none, _) => []

def debugText (c : Cursor α) : String :=
  "Iter \x7b pos: " ++ toString c.pos.toNat ++ ", len: " ++ toString c.items.length ++ " \x7d"

end Cursor

structure WriteCursor (α : Type) where
  items : List α
  pos : UInt64

namespace WriteCursor

def isEnd (c : WriteCursor α) : Bool := c.items.length ≤ c.pos.toNat
def get? (c : WriteCursor α) : Option α := entry? c.items c.pos
def get (c : WriteCursor α) : Except Fault α := entry c.items c.pos

def peek (c : WriteCursor α) (n : Int64) : Except Fault α := entry c.items (offset c.pos n)

def add (c : WriteCursor α) (n : Int64) : WriteCursor α := { c with pos := offset c.pos n }
def sub (c : WriteCursor α) (n : Int64) : WriteCursor α := { c with pos := offset c.pos (-n) }
def inc (c : WriteCursor α) : WriteCursor α := c.add 1
def dec (c : WriteCursor α) : WriteCursor α := c.sub 1

def equals (c d : WriteCursor α) : Bool := c.pos = d.pos
def compare (c d : WriteCursor α) : Ordering := Ord.compare c.pos.toNat d.pos.toNat

def toCursor (c : WriteCursor α) : Cursor α := ⟨c.items, c.pos⟩

def modifyAt (c : WriteCursor α) (n : Int64) (f : α → α) : Except Fault (WriteCursor α) := do
  let pos := offset c.pos n
  let x ← entry c.items pos
  return { c with items := c.items.set pos.toNat (f x) }

def modify (c : WriteCursor α) (f : α → α) : Except Fault (WriteCursor α) := do
  let x ← c.get
  return { c with items := c.items.set c.pos.toNat (f x) }

def modify? (c : WriteCursor α) (f : α → α) : Bool × WriteCursor α :=
  match c.get? with
  | some x => (true, { c with items := c.items.set c.pos.toNat (f x) })
  | none => (false, c)

def modifyRest (c : WriteCursor α) (f : α → α) : Nat × WriteCursor α :=
  let start := min c.pos.toNat c.items.length
  (c.items.length - start,
    { c with items := c.items.take start ++ (c.items.drop start).map f })

def debugText (c : WriteCursor α) : String :=
  "IterMut \x7b pos: " ++ toString c.pos.toNat ++ ", len: " ++ toString c.items.length ++ " \x7d"

end WriteCursor

/-- A walk over entries from both ends: what is left of them. -/
structure Walk (α : Type) where
  left : List α

namespace Walk

def next (w : Walk α) : Option α × Walk α := (w.left.head?, ⟨w.left.tail⟩)
def nextBack (w : Walk α) : Option α × Walk α := (w.left.getLast?, ⟨w.left.dropLast⟩)
def length (w : Walk α) : Nat := w.left.length

end Walk

end DocTree
