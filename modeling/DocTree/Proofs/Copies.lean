import Mathlib.Algebra.GroupWithZero.Nat
import DocTree.Proofs.Accounts
import DocTree.Proofs.Adoption

/-!
The payloads that adoption copies, in a fixed order, until one does not fit. What an adoption
costs and how far it comes is a matter of a list of sizes.
-/

namespace DocTree

def Leaf.payloads (n : Nat) : Leaf → List Nat
  | text home s => if isInline s || home = .arena n then [] else [s.utf8ByteSize]
  | bytes home b => if home = .arena n then [] else [b.length]
  | _ => []

namespace Value

mutual

/-- The sizes of the payloads of a value outside arena `n`, one entry for each occurrence.
References are not entered, nor are containers that belong to the arena. -/
def payloads (n : Nat) : Value → List Nat
  | leaf _ x => x.payloads n
  | array _ s => if s.home = .arena n then [] else itemPayloads n s.items
  | object _ o => if o.home = .arena n then [] else memberPayloads n o.members
  | ref .. => []

def itemPayloads (n : Nat) : List Value → List Nat
  | [] => []
  | v :: vs => v.payloads n ++ itemPayloads n vs

def memberPayloads (n : Nat) : List (Member Value) → List Nat
  | [] => []
  | m :: ms => m.value.payloads n ++ memberPayloads n ms

end

theorem itemPayloads_eq_flatten (n : Nat) (vs : List Value) :
    itemPayloads n vs = (vs.map (payloads n)).flatten := by
  induction vs with
  | nil => rfl
  | cons v vs ih => simp only [itemPayloads, ih, List.map_cons, List.flatten_cons]

theorem memberPayloads_eq_flatten (n : Nat) (ms : List (Member Value)) :
    memberPayloads n ms = (ms.map fun m => m.value.payloads n).flatten := by
  induction ms with
  | nil => rfl
  | cons m ms ih => simp only [memberPayloads, ih, List.map_cons, List.flatten_cons]

end Value

def copyAll (n : Nat) : List Nat → Charging Unit
  | [] => return
  | bytes :: sizes => do
    copyTo n bytes
    copyAll n sizes

theorem copyAll_append (n : Nat) (front back : List Nat) :
    copyAll n (front ++ back) = (do copyAll n front; copyAll n back) := by
  induction front with
  | nil => simp only [List.nil_append, copyAll, pure_bind]
  | cons bytes front ih => simp only [List.cons_append, copyAll, ih, bind_assoc]

theorem copyAll_single (n bytes : Nat) : copyAll n [bytes] = copyTo n bytes := by
  simp only [copyAll, bind_pure_unit]

theorem Leaf.adopt_eq (n : Nat) (x : Leaf) :
    x.adopt n = do copyAll n (x.payloads n); return x.housed n := by
  cases x with
  | text home s =>
    simp only [adopt, payloads, housed]
    split
    · simp only [copyAll, pure_bind]
    · simp only [copyAll_single]
  | bytes home b =>
    simp only [adopt, payloads, housed]
    split
    · rename_i here
      simp only [copyAll, pure_bind, here]
    · simp only [copyAll_single]
  | _ => simp only [adopt, payloads, housed, copyAll, pure_bind]

namespace Value

mutual

/-- Adoption copies the payloads and makes the same value of a value in any case. -/
theorem adopt_eq (n : Nat) : ∀ v : Value,
    v.adopt n = do copyAll n (v.payloads n); return v.housed n
  | leaf t x => by
    cases x with
    | emptyObject => simp only [adopt, payloads, Leaf.payloads, housed, copyAll, pure_bind]
    | _ => simp only [adopt, payloads, housed, Leaf.adopt_eq, bind_assoc, pure_bind]
  | array t s => by
    simp only [adopt, payloads, housed]
    split
    · simp only [copyAll, pure_bind]
    · simp only [adoptItems_eq n s.items, bind_assoc, pure_bind]
  | object t o => by
    simp only [adopt, payloads, housed]
    split
    · simp only [copyAll, pure_bind]
    · simp only [adoptMembers_eq n o.members, bind_assoc, pure_bind]
  | ref t v => by simp only [adopt, payloads, housed, copyAll, pure_bind]

theorem adoptItems_eq (n : Nat) : ∀ vs : List Value,
    adoptItems n vs = do copyAll n (itemPayloads n vs); return housedItems n vs
  | [] => by simp only [adoptItems, itemPayloads, housedItems, copyAll, pure_bind]
  | v :: vs => by
    simp only [adoptItems, itemPayloads, housedItems, adopt_eq n v, adoptItems_eq n vs,
      copyAll_append, bind_assoc, pure_bind]

theorem adoptMembers_eq (n : Nat) : ∀ ms : List (Member Value),
    adoptMembers n ms = do copyAll n (memberPayloads n ms); return housedMembers n ms
  | [] => by simp only [adoptMembers, memberPayloads, housedMembers, copyAll, pure_bind]
  | m :: ms => by
    simp only [adoptMembers, memberPayloads, housedMembers, adopt_eq n m.value,
      adoptMembers_eq n ms, copyAll_append, bind_assoc, pure_bind]

end

end Value

section Outcomes

variable {n : Nat} {sizes : List Nat} {l m : Ledger}

/-- Where copying stops: at a payload that does not fit behind those that were copied. -/
structure Stopped (l : Ledger) (n : Nat) (copied : List Nat) (refused : Nat) (m : Ledger) :
    Prop where
  charged : l.Charged n copied.sum m
  full : (m.account n).admits refused = false

theorem copyAll_ok {u : Unit} (copied : copyAll n sizes l = .ok u m) :
    (l.account n).admits sizes.sum = true ∧ l.Charged n sizes.sum m := by
  induction sizes generalizing l with
  | nil =>
    cases copied
    exact ⟨rfl, .nothing _ n⟩
  | cons bytes sizes ih =>
    obtain ⟨_, k, first, rest⟩ := bind_eq_ok copied
    obtain ⟨fits, charged⟩ := copyTo_ok first
    obtain ⟨others, later⟩ := ih rest
    rw [charged.here] at others
    simp only [List.sum_cons]
    exact ⟨(Account.admits_add _ _ _).mpr ⟨fits, others⟩, charged.trans later⟩

theorem copyAll_error {r : Refusal} (refused : copyAll n sizes l = .error r m) :
    ∃ copied bytes rest, sizes = copied ++ bytes :: rest ∧ r = .copy bytes ∧
      Stopped l n copied bytes m := by
  induction sizes generalizing l with
  | nil => cases refused
  | cons bytes sizes ih =>
    rcases bind_eq_error refused with now | ⟨_, k, first, later⟩
    · obtain ⟨full, rfl, rfl⟩ := copyTo_error now
      exact ⟨[], bytes, sizes, rfl, rfl, .nothing m n, full⟩
    · obtain ⟨copied, next, rest, rfl, rfl, stopped⟩ := ih later
      refine ⟨bytes :: copied, next, rest, rfl, rfl, ?_, stopped.full⟩
      simp only [List.sum_cons]
      exact (copyTo_ok first).2.trans stopped.charged

theorem copyAll_of_admits (fits : (l.account n).admits sizes.sum = true) :
    ∃ m, copyAll n sizes l = .ok () m := by
  cases copied : copyAll n sizes l with
  | ok _ m => exact ⟨m, rfl⟩
  | error r m =>
    obtain ⟨front, bytes, rest, rfl, rfl, charged, full⟩ := copyAll_error copied
    rw [List.sum_append, List.sum_cons] at fits
    have first := ((Account.admits_add _ _ _).mp fits).2
    rw [charged.here, ((Account.admits_add _ _ _).mp first).1] at full
    cases full

theorem Forward.copyAll (n : Nat) (sizes : List Nat) : Forward (copyAll n sizes) := by
  induction sizes with
  | nil => exact .pure _
  | cons bytes sizes ih => exact .bind (.copyTo n bytes) fun _ => ih

end Outcomes

namespace Value

variable {n : Nat} {v w : Value} {l m : Ledger} {r : Refusal}

theorem adopt_charges (adopted : v.adopt n l = .ok w m) :
    (l.account n).admits (v.payloads n).sum = true ∧ l.Charged n (v.payloads n).sum m := by
  rw [adopt_eq] at adopted
  obtain ⟨_, k, copied, ⟨⟩⟩ := bind_eq_ok adopted
  exact copyAll_ok copied

theorem adopt_stops (refused : v.adopt n l = .error r m) :
    ∃ copied bytes rest, v.payloads n = copied ++ bytes :: rest ∧ r = .copy bytes ∧
      Stopped l n copied bytes m := by
  rw [adopt_eq] at refused
  rcases bind_eq_error refused with now | ⟨_, _, _, ⟨⟩⟩
  exact copyAll_error now

theorem adopt_of_admits (fits : (l.account n).admits (v.payloads n).sum = true) :
    ∃ m, v.adopt n l = .ok (v.housed n) m := by
  obtain ⟨m, copied⟩ := copyAll_of_admits fits
  rw [adopt_eq, bind_of_ok copied]
  exact ⟨m, rfl⟩

end Value

/-- Whether the arena of a home has room for all payloads of the members together. -/
def Fits : Home → List (Member Value) → Ledger → Prop
  | .heap, _, _ => True
  | .arena n, ms, l => (l.account n).admits (Value.memberPayloads n ms).sum = true

instance decidableFits : ∀ home ms l, Decidable (Fits home ms l)
  | .heap, _, _ => .isTrue trivial
  | .arena n, _, l => inferInstanceAs (Decidable ((l.account n).admits _ = true))

namespace Fits

variable {home : Home} {m : Member Value} {ms : List (Member Value)} {l : Ledger}

theorem adopt (fits : Fits home ms l) :
    ∃ k, adoptMembersIn home ms l =
      .ok (ms.map fun m => ⟨m.key, m.value.housedIn home⟩) k := by
  have adopted : ∃ ks k, adoptMembersIn home ms l = .ok ks k := by
    cases home with
    | heap => exact ⟨ms, l, rfl⟩
    | arena n =>
      obtain ⟨k, copied⟩ := copyAll_of_admits fits
      refine ⟨Value.housedMembers n ms, k, ?_⟩
      change Value.adoptMembers n ms l = _
      rw [Value.adoptMembers_eq, bind_of_ok copied]
      rfl
  obtain ⟨ks, k, done⟩ := adopted
  exact ⟨k, by rw [done, adoptMembersIn_ok done]⟩

theorem of_adopted {ks : List (Member Value)} {k : Ledger}
    (adopted : adoptMembersIn home ms l = .ok ks k) : Fits home ms l := by
  cases home with
  | heap => trivial
  | arena n =>
    change Value.adoptMembers n ms l = _ at adopted
    rw [Value.adoptMembers_eq] at adopted
    obtain ⟨_, _, copied, ⟨⟩⟩ := bind_eq_ok adopted
    exact (copyAll_ok copied).1

theorem tail (fits : Fits home (m :: ms) l) : Fits home ms l := by
  cases home with
  | heap => trivial
  | arena n =>
    simp only [Fits, Value.memberPayloads, List.sum_append] at fits
    rw [Nat.add_comm] at fits
    exact ((Account.admits_add _ _ _).mp fits).1

theorem head (fits : Fits home (m :: ms) l) :
    ∃ k, m.value.adoptIn home l = .ok (m.value.housedIn home) k ∧ Fits home ms k := by
  cases home with
  | heap => exact ⟨l, rfl, trivial⟩
  | arena n =>
    simp only [Fits, Value.memberPayloads, List.sum_append] at fits
    obtain ⟨first, rest⟩ := (Account.admits_add _ _ _).mp fits
    obtain ⟨k, adopted⟩ := Value.adopt_of_admits first
    refine ⟨k, adopted, ?_⟩
    rw [← (Value.adopt_charges adopted).2.here] at rest
    exact rest

end Fits

namespace Forward

theorem adopt (n : Nat) (v : Value) : Forward (v.adopt n) := by
  rw [Value.adopt_eq]
  exact .bind (.copyAll n _) fun _ => .pure _

theorem adoptIn (home : Home) (v : Value) : Forward (v.adoptIn home) := by
  cases home with
  | heap => exact .pure v
  | arena n => exact adopt n v

theorem adoptAllIn (home : Home) (vs : List Value) : Forward (Value.adoptAllIn home vs) := by
  cases home with
  | heap => exact .pure vs
  | arena n =>
    change Forward (Value.adoptItems n vs)
    rw [Value.adoptItems_eq]
    exact .bind (.copyAll n _) fun _ => .pure _

theorem adoptMembersIn (home : Home) (ms : List (Member Value)) :
    Forward (adoptMembersIn home ms) := by
  cases home with
  | heap => exact .pure ms
  | arena n =>
    change Forward (Value.adoptMembers n ms)
    rw [Value.adoptMembers_eq]
    exact .bind (.copyAll n _) fun _ => .pure _

theorem textIn (home : Home) (s : String) : Forward (Value.textIn home s) := by
  cases home with
  | heap => exact .pure _
  | arena n =>
    simp only [Value.textIn]
    split
    · exact .pure _
    · exact .bind (.copyTo n _) fun _ => .pure _

theorem bytesIn (home : Home) (b : List UInt8) : Forward (Value.bytesIn home b) := by
  cases home with
  | heap => exact .pure _
  | arena n => exact .bind (.copyTo n _) fun _ => .pure _

end Forward

end DocTree
