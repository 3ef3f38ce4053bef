import DocTree.Proofs.Lockstep

namespace DocTree

def Leaf.housed (n : Nat) : Leaf → Leaf
  | text home s => if isInline s || home = .arena n then text home s else text (.arena n) s
  | bytes _ b => bytes (.arena n) b
  | x => x

namespace Value

mutual

/-- A value with its payloads and containers in arena `n`. -/
def housed (n : Nat) : Value → Value
  | leaf t .emptyObject => object t (.empty (.arena n))
  | leaf t x => leaf t (x.housed n)
  | array t s =>
    if s.home = .arena n then array t s
    else array t { s with home := .arena n, items := housedItems n s.items }
  | object t o =>
    if o.home = .arena n then object t o
    else object t { o with home := .arena n, members := housedMembers n o.members }
  | ref t v => ref t v

def housedItems (n : Nat) : List Value → List Value
  | [] => []
  | v :: vs => v.housed n :: housedItems n vs

def housedMembers (n : Nat) : List (Member Value) → List (Member Value)
  | [] => []
  | m :: ms => ⟨m.key, m.value.housed n⟩ :: housedMembers n ms

end

def housedIn : Home → Value → Value
  | .heap, v => v
  | .arena n, v => v.housed n

end Value

theorem Leaf.adopt_ok {n : Nat} {x y : Leaf} {l l' : Ledger}
    (adopted : x.adopt n l = .ok y l') : y = x.housed n := by
  cases x with
  | text home s =>
    rw [adopt] at adopted
    rw [housed]
    by_cases here : isInline s || home = .arena n
    · rw [if_pos here] at adopted
      rw [if_pos here]
      cases adopted
      rfl
    · rw [if_neg here] at adopted
      rw [if_neg here]
      obtain ⟨_, _, _, rest⟩ := bind_eq_ok adopted
      cases rest
      rfl
  | bytes home b =>
    rw [adopt] at adopted
    rw [housed]
    by_cases here : home = .arena n
    · rw [if_pos here] at adopted
      cases adopted
      rw [here]
    · rw [if_neg here] at adopted
      obtain ⟨_, _, _, rest⟩ := bind_eq_ok adopted
      cases rest
      rfl
  | _ => cases adopted; rfl

namespace Value

mutual

theorem adopt_ok {n : Nat} : ∀ {v w : Value} {l l' : Ledger},
    v.adopt n l = .ok w l' → w = v.housed n
  | leaf t x, w, l, l', adopted => by
    cases x with
    | emptyObject => cases adopted; rfl
    | _ =>
      obtain ⟨y, _, payload, rest⟩ := bind_eq_ok adopted
      cases rest
      rw [Leaf.adopt_ok payload]
      rfl
  | array t s, w, l, l', adopted => by
    unfold adopt at adopted
    unfold housed
    split at adopted
    · rename_i here
      rw [if_pos here]
      cases adopted
      rfl
    · rename_i elsewhere
      obtain ⟨items, _, inside, rest⟩ := bind_eq_ok adopted
      cases rest
      rw [if_neg elsewhere, adoptItems_ok inside]
  | object t o, w, l, l', adopted => by
    unfold adopt at adopted
    unfold housed
    split at adopted
    · rename_i here
      rw [if_pos here]
      cases adopted
      rfl
    · rename_i elsewhere
      obtain ⟨ms, _, inside, rest⟩ := bind_eq_ok adopted
      cases rest
      rw [if_neg elsewhere, adoptMembers_ok inside]
  | ref t v, w, l, l', adopted => by cases adopted; rfl

theorem adoptItems_ok {n : Nat} : ∀ {vs ws : List Value} {l l' : Ledger},
    adoptItems n vs l = .ok ws l' → ws = housedItems n vs
  | [], ws, l, l', adopted => by cases adopted; rfl
  | v :: vs, ws, l, l', adopted => by
    obtain ⟨first, _, head, rest⟩ := bind_eq_ok adopted
    obtain ⟨others, _, tail, last⟩ := bind_eq_ok rest
    cases last
    rw [adopt_ok head, adoptItems_ok tail]
    rfl

theorem adoptMembers_ok {n : Nat} : ∀ {ms ks : List (Member Value)} {l l' : Ledger},
    adoptMembers n ms l = .ok ks l' → ks = housedMembers n ms
  | [], ks, l, l', adopted => by cases adopted; rfl
  | m :: ms, ks, l, l', adopted => by
    obtain ⟨first, _, head, rest⟩ := bind_eq_ok adopted
    obtain ⟨others, _, tail, last⟩ := bind_eq_ok rest
    cases last
    rw [adopt_ok head, adoptMembers_ok tail]
    rfl

end

theorem adoptIn_ok {home : Home} {v w : Value} {l l' : Ledger}
    (adopted : v.adoptIn home l = .ok w l') : w = v.housedIn home := by
  cases home with
  | heap => cases adopted; rfl
  | arena n => exact adopt_ok adopted

theorem housedItems_eq_map (n : Nat) (vs : List Value) :
    housedItems n vs = vs.map (housed n) := by
  induction vs with
  | nil => rfl
  | cons v vs ih => rw [housedItems, ih, List.map_cons]

theorem housedMembers_eq_map (n : Nat) (ms : List (Member Value)) :
    housedMembers n ms = ms.map fun m => ⟨m.key, m.value.housed n⟩ := by
  induction ms with
  | nil => rfl
  | cons m ms ih => rw [housedMembers, ih, List.map_cons]

end Value

theorem adoptMembersIn_ok {home : Home} {ms ks : List (Member Value)} {l l' : Ledger}
    (adopted : adoptMembersIn home ms l = .ok ks l') :
    ks = ms.map fun m => ⟨m.key, m.value.housedIn home⟩ := by
  cases home with
  | heap =>
    cases adopted
    exact (List.map_id ms).symm
  | arena n =>
    rw [Value.adoptMembers_ok adopted]
    exact Value.housedMembers_eq_map n ms

theorem map_key_adoptMembersIn {home : Home} {ms ks : List (Member Value)} {l l' : Ledger}
    (adopted : adoptMembersIn home ms l = .ok ks l') :
    ks.map Member.key = ms.map Member.key := by
  rw [adoptMembersIn_ok adopted, List.map_map]
  rfl

end DocTree
