namespace DocTree

variable {α β : Type}

/-- How many entries satisfy `p`, if none does after one that does not. Each step halves the
list. -/
def partitionPoint (p : α → Bool) (xs : List α) : Nat :=
  match _h : xs.drop (xs.length / 2) with
  | [] => 0
  | x :: rest =>
    if p x then xs.length / 2 + 1 + partitionPoint p rest
    else partitionPoint p (xs.take (xs.length / 2))
termination_by xs.length
decreasing_by
  · have := congrArg List.length _h
    simp only [List.length_drop, List.length_cons] at this
    omega
  · have := congrArg List.length _h
    simp only [List.length_drop, List.length_cons, List.length_take] at this ⊢
    omega

/-- The entries whose key differs from that of the entry kept before them. -/
def runHeads [DecidableEq β] (key : α → β) : Option β → List α → List α
  | _, [] => []
  | last, x :: xs =>
    if last = some (key x) then runHeads key last xs else x :: runHeads key (some (key x)) xs

end DocTree
