import DocTree.Arena

namespace DocTree

structure Sequence (α : Type) where
  home : Home := .heap
  capacity : Nat := 0
  items : List α := []
  deriving Inhabited

namespace Sequence

variable {α : Type}

def empty (home : Home) : Sequence α := { home }

def withCapacity (home : Home) (capacity : Nat) : Charging (Sequence α) := do
  haveRoom capacity
  return { home, capacity }

def ofList (items : List α) : Sequence α := { items, capacity := items.length }

def filled (n : Nat) (x : α) : Charging (Sequence α) := do
  haveRoom n
  return ofList (List.replicate n x)

def length (s : Sequence α) : Nat := s.items.length

def withItems (s : Sequence α) (items : List α) : Sequence α :=
  { s with items, capacity := max s.capacity items.length }

def copy (s : Sequence α) : Sequence α := { s with capacity := s.items.length }

end Sequence

end DocTree
