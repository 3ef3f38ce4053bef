import DocTree.Value.Basic

namespace DocTree

inductive Event where
  | unit
  | boolean (b : Bool)
  | signed (n : Int64)
  | unsigned (n : UInt64)
  | wideSigned (n : Int)
  | wideUnsigned (n : Nat)
  | float (x : Double)
  | text (s : String)
  | bytes (b : List UInt8)
  | absent
  | present (e : Event)
  | newtype (e : Event)
  | variant (name : String)
  | sequence (hint : Option Nat) (items : List Event)
  | map (hint : Option Nat) (entries : List (Event × Event))
  | failure (message : String)

instance : Inhabited Event := ⟨.unit⟩

end DocTree
