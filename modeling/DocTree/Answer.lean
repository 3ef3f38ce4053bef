import DocTree.Edit

namespace DocTree

inductive Answer where
  | nothing
  | flag (b : Bool)
  | position (pos : Nat)
  | place (pos : Nat)
  /-- The member stands at a position, and whether its key was new. -/
  | placed (pos : Nat) (isNew : Bool)
  | value (v : Value)
  | value? (v : Option Value)
  | member (m : Member Value)

def done {σ : Type} (e : Edit σ Unit) : Edit σ Answer := do
  e
  return .nothing

end DocTree
