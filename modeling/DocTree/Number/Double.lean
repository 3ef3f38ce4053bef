/-!
Binary floating point numbers as the bits that hold them. Reading one, rounding to one and
comparing two are done in integers; nothing here rests on machine floats.
-/

namespace DocTree

/-- A 64-bit binary float: a sign bit, eleven exponent bits, fifty-two fraction bits. -/
structure Double where
  bits : UInt64
  deriving DecidableEq, Inhabited

namespace Double

def signWeight : Nat := 0x8000000000000000

/-- The weight of the lowest exponent bit, and of the leading one of a significand: two to the
fifty-second. -/
def leadingWeight : Nat := 0x10000000000000

def isNegative (x : Double) : Bool := signWeight ≤ x.bits.toNat

/-- The bits without the sign. They grow with the absolute value. -/
def magnitude (x : Double) : Nat := x.bits.toNat % signWeight

def infiniteMagnitude : Nat := 2047 * leadingWeight

def isNaN (x : Double) : Bool := infiniteMagnitude < x.magnitude

def exponentField (x : Double) : Nat := x.magnitude / leadingWeight

def fractionField (x : Double) : Nat := x.magnitude % leadingWeight

/-- The significand: numbers with an empty exponent lack the leading one. -/
def significand (x : Double) : Nat :=
  if x.exponentField = 0 then x.fractionField else leadingWeight + x.fractionField

/-- The exponent of two: the absolute value is `significand * 2 ^ power`. -/
def power (x : Double) : Int := (max x.exponentField 1 : Nat) - 1075

def ofMagnitude (negative : Bool) (m : Nat) : Double :=
  ⟨UInt64.ofNat (if negative then signWeight + m else m)⟩

def zero : Double := ⟨0⟩
def nan : Double := ofMagnitude false (infiniteMagnitude + leadingWeight / 2)
def infinity (negative : Bool) : Double := ofMagnitude negative infiniteMagnitude

/-- The integer nearest to `m / 2 ^ d`, a tie going to the even one. -/
def halfEven (m d : Nat) : Nat :=
  let unit := Nat.pow 2 d
  let whole := m / unit
  let rest := 2 * (m % unit)
  if unit < rest || (rest = unit && whole % 2 = 1) then whole + 1 else whole

/-- The magnitude bits nearest to `m * 2 ^ e`. The exponent field and the significand add up to
the bits, also where rounding carries into the next power of two. -/
def nearestMagnitude (m : Nat) (e : Int) : Nat :=
  if m = 0 then 0 else
    let q : Int := max (e + m.log2 - 52) (-1074)
    let s := if q ≤ e then m * Nat.pow 2 (e - q).toNat else halfEven m (q - e).toNat
    min ((q + 1074).toNat * leadingWeight + s) infiniteMagnitude

def nearest (negative : Bool) (m : Nat) (e : Int) : Double :=
  ofMagnitude negative (nearestMagnitude m e)

def ofInt (i : Int) : Double := nearest (i < 0) i.natAbs 0

/-- An integer that orders the doubles other than NaN as their values; both zeros give zero. -/
def orderKey (x : Double) : Int := if x.isNegative then -x.magnitude else x.magnitude

/-- Numeric equality: NaN equals nothing, the two zeros are equal. -/
def numericEq (x y : Double) : Bool := !x.isNaN && !y.isNaN && x.orderKey == y.orderKey

/-- The value cut off toward zero, for a finite number. -/
def whole (x : Double) : Int :=
  let m := if 0 ≤ x.power then x.significand * Nat.pow 2 x.power.toNat
    else x.significand / Nat.pow 2 (-x.power).toNat
  if x.isNegative then -m else m

def fractionSign (x : Double) : Int :=
  if 0 ≤ x.power || x.significand % Nat.pow 2 (-x.power).toNat = 0 then 0
  else if x.isNegative then -1 else 1

end Double

/-- Reads a binary float with `e` exponent bits and `f` fraction bits, all narrower than those of
a double, so that every number keeps its value. -/
def widen (e f : Nat) (bits : Nat) : Double :=
  let leading := Nat.pow 2 f
  let exponents := Nat.pow 2 e
  let negative := leading * exponents ≤ bits
  let fraction := bits % leading
  let exponent := bits / leading % exponents
  let lowest : Int := 2 - (exponents / 2 : Nat) - f
  if exponent = exponents - 1 then
    if fraction = 0 then .infinity negative else .nan
  else if exponent = 0 then .nearest negative fraction lowest
  else .nearest negative (leading + fraction) (lowest + (exponent - 1 : Nat))

structure Half where
  bits : UInt16
  deriving DecidableEq, Inhabited

def Half.toDouble (h : Half) : Double := widen 5 10 h.bits.toNat

/-- A 32-bit binary float. Values never hold one: it is widened on the way in. -/
structure Single where
  bits : UInt32
  deriving DecidableEq, Inhabited

def Single.toDouble (x : Single) : Double := widen 8 23 x.bits.toNat

example : (Half.mk 0x3c00).toDouble = ⟨0x3ff0000000000000⟩ := by decide +kernel
example : (Half.mk 1).toDouble = ⟨0x3e70000000000000⟩ := by decide +kernel
example : Double.ofInt 0x20000000000001 = ⟨0x4340000000000000⟩ := by decide +kernel
example : Double.ofInt (-0x8000000000000000) = ⟨0xc3e0000000000000⟩ := by decide +kernel

end DocTree
