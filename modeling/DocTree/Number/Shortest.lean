import DocTree.Number.Double

/-!
The shortest decimal that reads back as a given double. The decimals that round to a double fill
an interval around it, with its ends when the significand is even, and the grid of decimals is
refined digit by digit until a neighbour of the double falls into it.
-/

namespace DocTree

structure Decimal where
  mantissa : Nat
  exponent : Int
  deriving DecidableEq, Inhabited

namespace Decimal

def digitCount (n : Nat) : Nat :=
  if n = 0 then 0 else digitCount (n / 10) + 1
termination_by n
decreasing_by omega

def leadingExponent (num den : Nat) : Int :=
  if den ≤ num then digitCount (num / den) - 1 else -digitCount ((den - 1) / num)

def normalize (d : Decimal) : Decimal :=
  if h : 0 < d.mantissa ∧ d.mantissa % 10 = 0 then normalize ⟨d.mantissa / 10, d.exponent + 1⟩
  else d
termination_by d.mantissa
decreasing_by omega

def decade (d : Decimal) : Int := d.exponent + digitCount d.mantissa - 1

end Decimal

namespace Double

/-- Among the two multiples of `step` next to `value` the one inside the interval, as a factor of
`step`; the nearer one if both are. -/
def gridNeighbour (inside : Nat → Bool) (value step : Nat) : Option Nat :=
  let below := value / step
  match inside (below * step), inside ((below + 1) * step) with
  | true, true =>
    if value - below * step < (below + 1) * step - value then some below else some (below + 1)
  | true, false => some below
  | false, true => some (below + 1)
  | false, false => none

/-- The digits of a finite double with `i + 1` of them, if those read back. Everything is counted
in quarters of the unit in the last place, so that half the gap to either side is whole. -/
def digitsAt (x : Double) (i : Nat) : Option Decimal :=
  let m := 4 * x.significand
  let p := x.power - 2
  let high := m + 2
  let low := if x.fractionField = 0 && 1 < x.exponentField then m - 1 else m - 2
  let up := Nat.pow 2 p.toNat
  let down := Nat.pow 2 (-p).toNat
  let k := Decimal.leadingExponent (m * up) down - i
  let unit := up * Nat.pow 10 (-k).toNat
  let step := down * Nat.pow 10 k.toNat
  let inside := fun d =>
    if x.significand % 2 = 0 then low * unit ≤ d && d ≤ high * unit
    else low * unit < d && d < high * unit
  (gridNeighbour inside (m * unit) step).map fun d => ⟨d, k⟩

/-- The shortest decimal for a finite double other than zero. Seventeen digits always do. -/
def shortest (x : Double) : Decimal :=
  ((List.range 17).findSome? x.digitsAt).getD ⟨0, 0⟩ |>.normalize

end Double

end DocTree
