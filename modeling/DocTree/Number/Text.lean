import DocTree.Number.Shortest

namespace DocTree

/-- Where a number is written out in full, by the exponent of its leading digit. -/
structure FloatLayout where
  inFull : Int → Bool

namespace FloatLayout

def debug : FloatLayout := ⟨fun e => -4 ≤ e && e < 16⟩

def message : FloatLayout := ⟨fun _ => true⟩

end FloatLayout

namespace Decimal

def digits (d : Decimal) : List Char := Nat.toDigits 10 d.mantissa

def inFull (d : Decimal) : List Char :=
  let ds := d.digits
  if 0 ≤ d.exponent then ds ++ List.replicate d.exponent.toNat '0' ++ ['.', '0']
  else
    let places := (-d.exponent).toNat
    if places < ds.length then
      ds.take (ds.length - places) ++ '.' :: ds.drop (ds.length - places)
    else '0' :: '.' :: List.replicate (places - ds.length) '0' ++ ds

def withExponent (d : Decimal) : List Char :=
  let head := match d.digits with
    | [] => []
    | [c] => [c]
    | c :: rest => c :: '.' :: rest
  head ++ 'e' :: (toString d.decade).toList

end Decimal

def Double.text (layout : FloatLayout) (x : Double) : String :=
  if x.isNaN then "NaN" else
    let sign := if x.isNegative then "-" else ""
    let body :=
      if x.magnitude = infiniteMagnitude then "inf"
      else if x.magnitude = 0 then "0.0"
      else
        let d := x.shortest
        String.ofList (if layout.inFull d.decade then d.inFull else d.withExponent)
    sign ++ body

end DocTree
