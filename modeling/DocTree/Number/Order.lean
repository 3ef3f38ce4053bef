import DocTree.Number.Double

/-!
The order of numbers across their storages. No integer is ever rounded. NaN is equal to itself and
above every other number.
-/

namespace DocTree

inductive Number where
  | signed (n : Int64)
  | unsigned (n : UInt64)
  | float (x : Double)
  deriving DecidableEq

namespace Double

def compareNaNLast (x y : Double) : Ordering :=
  match x.isNaN, y.isNaN with
  | true, true => .eq
  | true, false => .gt
  | false, true => .lt
  | false, false => compare x.orderKey y.orderKey

/-- The double 2 ^ 64. Every integer word lies strictly between it and its negative. -/
def wordBound : Double := ⟨0x43f0000000000000⟩

def compareInt (i : Int) (x : Double) : Ordering :=
  if x.isNaN || wordBound.orderKey ≤ x.orderKey then .lt
  else if x.orderKey ≤ -wordBound.orderKey then .gt
  else (compare i x.whole).then (compare 0 x.fractionSign)

end Double

namespace Number

def compare : Number → Number → Ordering
  | .signed x, .signed y => Ord.compare x.toInt y.toInt
  | .unsigned x, .unsigned y => Ord.compare x.toNat y.toNat
  | .signed x, .unsigned y => Ord.compare x.toInt (y.toNat : Int)
  | .unsigned x, .signed y => Ord.compare (x.toNat : Int) y.toInt
  | .signed x, .float y => Double.compareInt x.toInt y
  | .unsigned x, .float y => Double.compareInt x.toNat y
  | .float x, .signed y => (Double.compareInt y.toInt x).swap
  | .float x, .unsigned y => (Double.compareInt y.toNat x).swap
  | .float x, .float y => Double.compareNaNLast x y

instance : Ord Number := ⟨compare⟩

end Number

end DocTree
