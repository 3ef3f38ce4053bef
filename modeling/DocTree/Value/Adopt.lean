import DocTree.Value.Basic

/-!
Adoption: moving the payloads of a value into an arena. Containers become containers of the
arena, and one that already belongs to it is taken as it is, without looking inside. The empty
object becomes an object of the arena, so that members inserted later end up there too.
References are not entered.
-/

namespace DocTree

/-- A leaf in arena `n`. Inline text has no payload, and one that is there already stays. -/
def Leaf.adopt (n : Nat) : Leaf → Charging Leaf
  | text home s =>
    if isInline s || home = .arena n then return text home s
    else do
      copyTo n s.utf8ByteSize
      return text (.arena n) s
  | bytes home b =>
    if home = .arena n then return bytes home b
    else do
      copyTo n b.length
      return bytes (.arena n) b
  | x => return x

namespace Value

mutual

def adopt (n : Nat) : Value → Charging Value
  | leaf t .emptyObject => return object t (.empty (.arena n))
  | leaf t x => return leaf t (← x.adopt n)
  | array t s =>
    if s.home = .arena n then return array t s
    else return array t { s with home := .arena n, items := ← adoptItems n s.items }
  | object t o =>
    if o.home = .arena n then return object t o
    else return object t { o with home := .arena n, members := ← adoptMembers n o.members }
  | ref t v => return ref t v

/-- The first refusal ends it. -/
def adoptItems (n : Nat) : List Value → Charging (List Value)
  | [] => return []
  | v :: vs => return (← v.adopt n) :: (← adoptItems n vs)

def adoptMembers (n : Nat) : List (Member Value) → Charging (List (Member Value))
  | [] => return []
  | m :: ms => return ⟨m.key, ← m.value.adopt n⟩ :: (← adoptMembers n ms)

end

def adoptIn : Home → Value → Charging Value
  | .heap, v => return v
  | .arena n, v => v.adopt n

def adoptAllIn : Home → List Value → Charging (List Value)
  | .heap, vs => return vs
  | .arena n, vs => adoptItems n vs

end Value

def adoptMembersIn : Home → List (Member Value) → Charging (List (Member Value))
  | .heap, ms => return ms
  | .arena n, ms => Value.adoptMembers n ms

end DocTree
