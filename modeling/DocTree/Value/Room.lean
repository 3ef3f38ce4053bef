import DocTree.Value.Basic

/-!
Room that containers keep for more entries. Shrinking gives it back in a whole tree; references
are not entered.
-/

namespace DocTree

namespace Value

mutual

def shrinkToFit : Value → Value
  | leaf t x => leaf t x
  | array t s => array t { s with items := shrinkItems s.items, capacity := s.items.length }
  | object t o =>
    object t { o with members := shrinkMembers o.members, capacity := o.members.length }
  | ref t v => ref t v

def shrinkItems : List Value → List Value
  | [] => []
  | v :: vs => v.shrinkToFit :: shrinkItems vs

def shrinkMembers : List (Member Value) → List (Member Value)
  | [] => []
  | m :: ms => ⟨m.key, m.value.shrinkToFit⟩ :: shrinkMembers ms

end

mutual

def isTight : Value → Bool
  | leaf _ _ => true
  | array _ s => s.capacity == s.items.length && tightItems s.items
  | object _ o => o.capacity == o.members.length && tightMembers o.members
  | ref _ _ => true

def tightItems : List Value → Bool
  | [] => true
  | v :: vs => v.isTight && tightItems vs

def tightMembers : List (Member Value) → Bool
  | [] => true
  | m :: ms => m.value.isTight && tightMembers ms

end

end Value

namespace Sequence

def shrinkToFit (s : Sequence Value) : Sequence Value :=
  { s with items := Value.shrinkItems s.items, capacity := s.items.length }

def isTight (s : Sequence Value) : Bool :=
  s.capacity == s.items.length && Value.tightItems s.items

end Sequence

namespace Object

def shrinkToFit (o : Object Value) : Object Value :=
  { o with members := Value.shrinkMembers o.members, capacity := o.members.length }

def isTight (o : Object Value) : Bool :=
  o.capacity == o.members.length && Value.tightMembers o.members

end Object

namespace InsertionObject

def shrinkToFit (o : InsertionObject Value) : InsertionObject Value :=
  { o with members := Value.shrinkMembers o.members, capacity := o.members.length }

def isTight (o : InsertionObject Value) : Bool :=
  o.capacity == o.members.length && Value.tightMembers o.members

end InsertionObject

end DocTree
