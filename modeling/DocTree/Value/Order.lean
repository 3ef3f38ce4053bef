import DocTree.Value.Read

/-!
Equality and order of values. Both look through references and past tags, storages and the way an
object lists its members.
-/

namespace DocTree

def compareLists {α : Type} (cmp : α → α → Ordering) : List α → List α → Ordering
  | [], [] => .eq
  | [], _ :: _ => .lt
  | _ :: _, [] => .gt
  | x :: xs, y :: ys => (cmp x y).then (compareLists cmp xs ys)

def compareKeys (a b : String) : Ordering :=
  if a < b then .lt else if a = b then .eq else .gt

/-- The rank of a kind among the others. All numbers share one. -/
def Kind.rank : Kind → Nat
  | null => 0
  | boolean => 1
  | int64 | uint64 | half | double => 2
  | text => 3
  | bytes => 4
  | array => 5
  | object => 6

namespace Leaf

def compareSameRank : Leaf → Leaf → Ordering
  | boolean a, boolean b => compare a b
  | text _ a, text _ b => compareKeys a b
  | bytes _ a, bytes _ b => compareLists (fun x y => compare x.toNat y.toNat) a b
  | a, b =>
    match a.number?, b.number? with
    | some x, some y => x.compare y
    | _, _ => .eq

def equals (a b : Leaf) : Bool :=
  match a.number?, b.number? with
  | some x, some y => x.compare y = .eq
  | _, _ =>
    match a, b with
    | null, null => true
    | boolean x, boolean y => x = y
    | bytes _ x, bytes _ y => x = y
    | text _ x, text _ y => x = y
    | emptyObject, emptyObject => true
    | _, _ => false

end Leaf

namespace Value

mutual

def compare : Value → Value → Ordering
  | ref _ a, b => a.compare b
  | leaf _ x, b =>
    (Ord.compare x.kind.rank b.kind.rank).then <|
      match b.resolve with
      | leaf _ y => x.compareSameRank y
      | object _ o => if o.members.isEmpty then .eq else .lt
      | _ => .eq
  | array _ s, b =>
    (Ord.compare Kind.array.rank b.kind.rank).then <|
      match b.resolve with
      | array _ t => compareItems s.items t.items
      | _ => .eq
  | object _ o, b =>
    (Ord.compare Kind.object.rank b.kind.rank).then <|
      match b.asObject? with
      | some p => compareMembers o.byKey p.byKey
      | none => .eq

def compareItems : List Value → List Value → Ordering
  | [], [] => .eq
  | [], _ :: _ => .lt
  | _ :: _, [] => .gt
  | x :: xs, y :: ys => (x.compare y).then (compareItems xs ys)

/-- Member by member, key before value. -/
def compareMembers : List (Member Value) → List (Member Value) → Ordering
  | [], [] => .eq
  | [], _ :: _ => .lt
  | _ :: _, [] => .gt
  | x :: xs, y :: ys =>
    ((compareKeys x.key y.key).then (x.value.compare y.value)).then (compareMembers xs ys)

end

mutual

def equals : Value → Value → Bool
  | ref _ a, b => a.equals b
  | leaf _ x, b =>
    match b.resolve with
    | leaf _ y => x.equals y
    | object _ o => x = .emptyObject && o.members.isEmpty
    | _ => false
  | array _ s, b =>
    match b.resolve with
    | array _ t => equalItems s.items t.items
    | _ => false
  | object _ o, b =>
    match b.asObject? with
    | some p => o.length = p.length && equalMembers o.byKey p.byKey
    | none => false

def equalItems : List Value → List Value → Bool
  | [], [] => true
  | x :: xs, y :: ys => x.equals y && equalItems xs ys
  | _, _ => false

def equalMembers : List (Member Value) → List (Member Value) → Bool
  | [], [] => true
  | x :: xs, y :: ys => x.key = y.key && x.value.equals y.value && equalMembers xs ys
  | _, _ => false

end

instance : BEq Value := ⟨equals⟩
instance : Ord Value := ⟨compare⟩

end Value

namespace Member

def compare (a b : Member Value) : Ordering :=
  (compareKeys a.key b.key).then (a.value.compare b.value)

def equals (a b : Member Value) : Bool := a.key = b.key && a.value.equals b.value

end Member

def equalByKey (a b : List (Member Value)) : Bool :=
  a.length = b.length && Value.equalMembers a b

def compareByKey (a b : List (Member Value)) : Ordering := Value.compareMembers a b

namespace Sequence

def equals (a b : Sequence Value) : Bool := Value.equalItems a.items b.items
def compare (a b : Sequence Value) : Ordering := Value.compareItems a.items b.items

end Sequence

namespace Value

def equalsSequence (v : Value) (s : Sequence Value) : Bool := v.asSequence?.any (·.equals s)

def equalsByKey (v : Value) (ms : List (Member Value)) : Bool :=
  v.asObject?.any fun o => equalByKey o.byKey ms

def equalsInt64 (v : Value) (n : Int64) : Bool := v.asInt64? = some n
def equalsUInt64 (v : Value) (n : UInt64) : Bool := v.asUInt64? = some n

def equalsDouble (v : Value) (x : Double) : Bool := v.asDouble?.any (·.numericEq x)
def equalsBool (v : Value) (b : Bool) : Bool := v.asBool? = some b
def equalsText (v : Value) (s : String) : Bool := v.asText? = some s

def equalsList {α : Type} (eq : Value → α → Bool) (v : Value) (xs : List α) : Bool :=
  v.asSequence?.any fun s => s.length = xs.length && (s.items.zip xs).all fun (a, x) => eq a x

end Value

end DocTree
