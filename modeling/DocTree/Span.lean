import DocTree.Failure

/-!
Stretches of positions. The checks come in a fixed order, so that one fault is reported when
several apply.
-/

namespace DocTree

inductive Bound where
  | included (n : Nat)
  | excluded (n : Nat)
  | unbounded
  deriving DecidableEq

/-- One more than the largest position, two to the sixty-fourth. -/
def positionLimit : Nat := 0x10000000000000000

def after (n : Nat) (overflow : Fault) : Except Fault Nat :=
  if n + 1 < positionLimit then .ok (n + 1) else .error overflow

def Bound.start : Bound → Except Fault Nat
  | included n => .ok n
  | excluded n => after n .rangeStartOverflow
  | unbounded => .ok 0

def Bound.stop (size : Nat) : Bound → Except Fault Nat
  | included n => after n .rangeEndOverflow
  | excluded n => .ok n
  | unbounded => .ok size

/-- The positions `start ≤ i < stop` that two bounds select in a container of `size` entries. -/
def span (low high : Bound) (size : Nat) : Except Fault (Nat × Nat) := do
  let start ← low.start
  let stop ← high.stop size
  if stop < start then throw (.rangeReversed start stop)
  if size < stop then throw (.rangePastEnd stop size)
  return (start, stop)

def eraseSpan {α : Type} (xs : List α) (start stop : Nat) : List α :=
  xs.take start ++ xs.drop stop

end DocTree
