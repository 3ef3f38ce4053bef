import DocTree.Object.Operation
import DocTree.Proofs.Equality
import DocTree.Proofs.Intake

namespace DocTree

namespace Value

theorem housedIn_housedIn (home : Home) (v : Value) :
    (v.housedIn home).housedIn home = v.housedIn home := by
  cases home with
  | heap => rfl
  | arena n => exact v.housed_housed n

theorem adoptIn_adopted {home : Home} {v w : Value} {l m : Ledger}
    (adopted : v.adoptIn home l = .ok w m) : w.adoptIn home = return w := by
  obtain ⟨u, again⟩ := adoptIn_again adopted
  have second : w.adoptIn home l = .ok u l := by
    rw [again]
    rfl
  rw [again, adoptIn_ok second, adoptIn_ok adopted, housedIn_housedIn]

theorem adoptIn_error {home : Home} {v : Value} {l m : Ledger} {r : Refusal}
    (refused : v.adoptIn home l = .error r m) : ∃ bytes, r = .copy bytes := by
  cases home with
  | heap => cases refused
  | arena n =>
    obtain ⟨_, bytes, _, _, rfl, _⟩ := adopt_stops refused
    exact ⟨bytes, rfl⟩

def memberKeys : Value → List String
  | object _ o => o.members.map Member.key
  | _ => []

/-- Two values that hold the same, wherever they keep it. -/
structure SameContent (v w : Value) : Prop where
  tag : w.tag = v.tag
  equal : ∀ u, w.equals u = v.equals u ∧ u.equals w = u.equals v
  keys : w.memberKeys = v.memberKeys
  count : w.parts.length = v.parts.length

theorem SameContent.refl (v : Value) : v.SameContent v := ⟨rfl, fun _ => ⟨rfl, rfl⟩, rfl, rfl⟩

theorem tag_housed (n : Nat) (v : Value) : (v.housed n).tag = v.tag := by
  cases v with
  | leaf t x => cases x <;> rfl
  | array t s =>
    unfold housed
    split <;> rfl
  | object t o =>
    unfold housed
    split <;> rfl
  | ref t w => rfl

theorem memberKeys_housed (n : Nat) (v : Value) : (v.housed n).memberKeys = v.memberKeys := by
  cases v with
  | leaf t x => cases x <;> rfl
  | array t s =>
    unfold housed
    split <;> rfl
  | object t o =>
    unfold housed
    split
    · rfl
    · rw [memberKeys, housedMembers_eq_map, List.map_map]
      rfl
  | ref t w => rfl

theorem housed_sameContent (n : Nat) (v : Value) : v.SameContent (v.housed n) where
  tag := tag_housed n v
  equal u := by
    have left := equals_housed n v u
    exact ⟨left, by rw [equals_comm, left, equals_comm]⟩
  keys := memberKeys_housed n v
  count := by
    by_cases here : v.IsContainerOf n
    · rw [housed_of_container here]
    · rw [parts_housed here, List.length_map]

theorem rel_sameContent_refl (v : Option Value) : Option.Rel SameContent v v := by
  cases v with
  | none => exact .none
  | some v => exact .some (.refl v)

theorem part?_housedIn (home : Home) (v : Value) (place : List Nat) :
    Option.Rel SameContent (v.part? place) ((v.housedIn home).part? place) := by
  cases home with
  | heap => exact rel_sameContent_refl _
  | arena n =>
    change Option.Rel SameContent (v.part? place) ((v.housed n).part? place)
    by_cases inside : v.Sealed n place
    · rw [part?_housed_of_sealed inside]
      exact rel_sameContent_refl _
    · rw [part?_housed_of_open inside]
      cases v.part? place with
      | none => exact .none
      | some w => exact .some (housed_sameContent n w)

/-- How adoption leaves a value. -/
structure Adopted (home : Home) (v w : Value) : Prop where
  again : ∀ l, w.adoptIn home l = .ok w l
  same : ∀ place, Option.Rel SameContent (v.part? place) (w.part? place)

end Value

/-- The insertion that reports refusals, next to the one it hands over to, which cannot. -/
structure RefusesOnlyOnce {O : Type} [MemberStore O] (o : O) (key : String) (v : Value)
    (l : Ledger) : Prop where
  /-- Once the value is adopted, the other one succeeds whatever any arena has left by then, and
  it takes nothing. -/
  taken : ∀ w m, v.adoptIn (MemberStore.home o) l = .ok w m →
    ∃ a p, MemberStore.tryInsertOrAssign key v ⟨o, l⟩ = .ok a ⟨p, m⟩ ∧
      ∀ k, MemberStore.insertOrAssign key w ⟨o, k⟩ = .ok a ⟨p, k⟩
  reported : ∀ r m, v.adoptIn (MemberStore.home o) l = .error r m →
    ∃ bytes, MemberStore.tryInsertOrAssign key v ⟨o, l⟩ =
      .error (.error (.refused bytes)) ⟨o, m⟩
  returns : ∀ bytes t, MemberStore.tryInsertOrAssign key v ⟨o, l⟩ ≠ .error (.exhausted bytes) t

theorem RefusesOnlyOnce.of_free {O : Type} [MemberStore O] {o : O} {key : String} {v : Value}
    {l : Ledger}
    (adopts_first : MemberStore.tryInsertOrAssign key v ⟨o, l⟩ =
      (Edit.orRefused (v.adoptIn (MemberStore.home o)) >>= fun w =>
        MemberStore.insertOrAssign key w) ⟨o, l⟩)
    (free : ∀ w, w.adoptIn (MemberStore.home o) = pure w →
      ∃ a p, ∀ k, MemberStore.insertOrAssign key w ⟨o, k⟩ = .ok a ⟨p, k⟩) :
    RefusesOnlyOnce o key v l := by
  have taken : ∀ w m, v.adoptIn (MemberStore.home o) l = .ok w m →
      ∃ a p, MemberStore.tryInsertOrAssign key v ⟨o, l⟩ = .ok a ⟨p, m⟩ ∧
        ∀ k, MemberStore.insertOrAssign key w ⟨o, k⟩ = .ok a ⟨p, k⟩ := by
    intro w m adopted
    obtain ⟨a, p, placed⟩ := free w (Value.adoptIn_adopted adopted)
    refine ⟨a, p, ?_, placed⟩
    rw [adopts_first]
    exact (bind_of_ok (Edit.charge_of_ok adopted _ o)).trans (placed m)
  have reported : ∀ r m, v.adoptIn (MemberStore.home o) l = .error r m →
      ∃ bytes, MemberStore.tryInsertOrAssign key v ⟨o, l⟩ =
        .error (.error (.refused bytes)) ⟨o, m⟩ := by
    intro r m refused
    obtain ⟨bytes, rfl⟩ := Value.adoptIn_error refused
    refine ⟨bytes, ?_⟩
    rw [adopts_first]
    exact bind_of_error (Edit.charge_of_error refused _ o)
  refine ⟨taken, reported, fun bytes t ended => ?_⟩
  cases adoption : v.adoptIn (MemberStore.home o) l with
  | ok w m =>
    obtain ⟨a, p, done, -⟩ := taken w m adoption
    rw [done] at ended
    cases ended
  | error r m =>
    obtain ⟨size, told⟩ := reported r m adoption
    rw [told] at ended
    cases ended

theorem Object.refusesOnlyOnce (o : Object Value) (key : String) (v : Value) (l : Ledger) :
    RefusesOnlyOnce o key v l :=
  .of_free rfl fun _ free => place_free free (o.lowerBound 0 key) true

theorem InsertionObject.refusesOnlyOnce (o : InsertionObject Value) (key : String) (v : Value)
    (l : Ledger) : RefusesOnlyOnce o key v l :=
  .of_free rfl fun _ free => place_free free o.length true

/-- Adoption does nothing the second time and never changes what a value holds. So an insertion
that reports refusals never ends in one that it does not report, with a new key or a known one,
in either kind of object, and however full the arena is. -/
theorem adoption_is_idempotent :
    (∀ (home : Home) (v w : Value) (l m : Ledger),
      v.adoptIn home l = .ok w m → v.Adopted home w) ∧
    (∀ (o : Object Value) (key : String) (v : Value) (l : Ledger), RefusesOnlyOnce o key v l) ∧
    ∀ (o : InsertionObject Value) (key : String) (v : Value) (l : Ledger),
      RefusesOnlyOnce o key v l := by
  refine ⟨fun home v w l m adopted => ⟨fun k => ?_, fun place => ?_⟩,
    Object.refusesOnlyOnce, InsertionObject.refusesOnlyOnce⟩
  · rw [Value.adoptIn_adopted adopted]
    rfl
  · rw [Value.adoptIn_ok adopted]
    exact v.part?_housedIn home place

def sampleFilling : Value := .ofSequence <| .ofList
  [.ofBytes (List.replicate 30 0), .ofText "text that is thirty bytes long", .emptyObject]

def sampleBrim : Ledger := [{ limit := some 60 }]

theorem adoption_is_idempotent_sample :
    ∃ w m, sampleFilling.adoptIn (.arena 0) sampleBrim = .ok w m ∧
      (m.account 0).admits 1 = false ∧ sampleFilling.Adopted (.arena 0) w ∧
      ∀ key ∈ ["known", "new"],
        (∃ a p, Object.insertOrAssign key w ⟨⟨.arena 0, 1, [⟨"known", .null⟩]⟩, m⟩ =
          .ok a ⟨p, m⟩) ∧
        ∃ a p, InsertionObject.insertOrAssign key w
          ⟨⟨.arena 0, 1, [⟨"known", .null⟩], [0]⟩, m⟩ = .ok a ⟨p, m⟩ := by
  refine ⟨_, _, rfl, rfl, adoption_is_idempotent.1 _ _ _ sampleBrim _ rfl, fun key _ => ⟨?_, ?_⟩⟩
  · obtain ⟨a, p, -, placed⟩ := (adoption_is_idempotent.2.1 ⟨.arena 0, 1, [⟨"known", .null⟩]⟩ key
      sampleFilling sampleBrim).taken _ _ rfl
    exact ⟨a, p, placed _⟩
  · obtain ⟨a, p, -, placed⟩ := (adoption_is_idempotent.2.2
      ⟨.arena 0, 1, [⟨"known", .null⟩], [0]⟩ key sampleFilling sampleBrim).taken _ _ rfl
    exact ⟨a, p, placed _⟩

end DocTree
