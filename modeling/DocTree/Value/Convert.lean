import DocTree.Value.Order

namespace DocTree

class ToValue (α : Type) where
  toValue : α → Value

export ToValue (toValue)

instance : ToValue Value := ⟨id⟩
instance : ToValue Unit := ⟨fun _ => .null⟩
instance : ToValue Bool := ⟨.ofBool⟩
instance : ToValue Int64 := ⟨.ofInt64⟩
instance : ToValue UInt64 := ⟨.ofWord⟩
instance : ToValue Double := ⟨.ofDouble⟩
instance : ToValue Single := ⟨fun x => .ofDouble x.toDouble⟩
instance : ToValue String := ⟨.ofText⟩
instance : ToValue Char := ⟨fun c => .ofText c.toString⟩
instance : ToValue (Sequence Value) := ⟨.ofSequence⟩
instance : ToValue (Object Value) := ⟨.ofObject⟩

instance {α : Type} [ToValue α] : ToValue (Option α) := ⟨fun x => (x.map toValue).getD .null⟩

instance {α : Type} [ToValue α] : ToValue (List α) :=
  ⟨fun xs => .ofSequence (.ofList (xs.map toValue))⟩

namespace Value

def list (vs : List Value) : Value := toValue vs

def nestInArrays (v : Value) : Nat → Value
  | 0 => v
  | n + 1 => list [nestInArrays v n]

def nestInObjects (key : String) (v : Value) : Nat → Value
  | 0 => v
  | n + 1 => ofMembers [⟨key, nestInObjects key v n⟩]

end Value

end DocTree
