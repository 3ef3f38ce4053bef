import DocTree.Proofs.Built

namespace DocTree

variable {σ τ : Type}

/-- The members whose keys are not known, and one for each key. -/
def newcomers (known : List String) : List (Member Value) → List (Member Value)
  | [] => []
  | m :: ms => if m.key ∈ known then newcomers known ms else m :: newcomers (m.key :: known) ms

def Paid : Home → List (Member Value) → Ledger → Ledger → Prop
  | .heap, _, l, k => k = l
  | .arena n, ms, l, k => l.Charged n (Value.memberPayloads n ms).sum k

/-- The edit takes in the members just if they fit, and ends the process otherwise. -/
structure Settles (home : Home) (ms : List (Member Value)) (l : Ledger) (left : σ → Prop)
    (result : EStateM.Result Failure (Scene σ) Unit) : Prop where
  fitting : Fits home ms l → ∃ s, result = .ok () s ∧ left s.subject ∧ Paid home ms l s.ledger
  overfull : ¬ Fits home ms l → ∃ bytes s, result = .error (.exhausted bytes) s

namespace Settles

variable {home : Home} {ms : List (Member Value)} {l : Ledger} {left : σ → Prop}
variable {result : EStateM.Result Failure (Scene σ) Unit}

theorem of_ok {s : Scene σ} (settles : Settles home ms l left result)
    (done : result = .ok () s) : left s.subject := by
  by_cases fits : Fits home ms l
  · obtain ⟨t, same, held, -⟩ := settles.fitting fits
    rw [done] at same
    cases same
    exact held
  · obtain ⟨bytes, t, failed⟩ := settles.overfull fits
    rw [done] at failed
    cases failed

end Settles

theorem Edit.orExhausted_of_ok {α : Type} {c : Charging α} {l k : Ledger} {a : α}
    (given : c l = .ok a k) (x : σ) : orExhausted c ⟨x, l⟩ = .ok a ⟨x, k⟩ :=
  charge_of_ok given _ x

def housedAll (home : Home) (ms : List (Member Value)) : List (Member Value) :=
  ms.map fun m => ⟨m.key, m.value.housedIn home⟩

@[simp] theorem map_key_housedAll (home : Home) (ms : List (Member Value)) :
    (housedAll home ms).map Member.key = ms.map Member.key := by
  simp only [housedAll, List.map_map, Function.comp_def]

namespace Fits

variable {home : Home} {m : Member Value} {ms : List (Member Value)} {l : Ledger}

theorem nil (home : Home) (l : Ledger) : Fits home [] l := by
  cases home with
  | heap => trivial
  | arena n => rfl

theorem cons_iff {v : Value} {k : Ledger} (adopted : m.value.adoptIn home l = .ok v k) :
    Fits home (m :: ms) l ↔ Fits home ms k := by
  cases home with
  | heap => exact Iff.rfl
  | arena n =>
    obtain ⟨first, charged⟩ := Value.adopt_charges adopted
    simp only [Fits, Value.memberPayloads, List.sum_append, Account.admits_add, first, true_and,
      charged.here]

theorem newcomers (fits : Fits home ms l) (known : List String) :
    Fits home (newcomers known ms) l := by
  induction ms generalizing known l with
  | nil => exact fits
  | cons m ms ih =>
    unfold DocTree.newcomers
    split
    · exact ih fits.tail known
    · obtain ⟨k, adopted, rest⟩ := fits.head
      exact (cons_iff adopted).mpr (ih rest _)

end Fits

namespace Paid

variable {home : Home} {m : Member Value} {ms ks : List (Member Value)} {l k i : Ledger}

theorem nil (home : Home) (l : Ledger) : Paid home [] l l := by
  cases home with
  | heap => exact rfl
  | arena n => exact .nothing l n

theorem cons {v : Value} (adopted : m.value.adoptIn home l = .ok v k) (rest : Paid home ms k i) :
    Paid home (m :: ms) l i := by
  cases home with
  | heap =>
    cases adopted
    exact rest
  | arena n =>
    simp only [Paid, Value.memberPayloads, List.sum_append]
    exact (Value.adopt_charges adopted).2.trans rest

theorem of_adopted (adopted : adoptMembersIn home ms l = .ok ks k) : Paid home ms l k := by
  cases home with
  | heap =>
    cases adopted
    exact rfl
  | arena n =>
    change Value.adoptMembers n ms l = _ at adopted
    rw [Value.adoptMembers_eq] at adopted
    obtain ⟨_, _, copied, ⟨⟩⟩ := bind_eq_ok adopted
    exact (copyAll_ok copied).2

end Paid

theorem Settles.adopting (home : Home) (ms : List (Member Value)) (l : Ledger)
    {g : List (Member Value) → Edit σ Unit} {x y : σ}
    (puts : ∀ k, g (housedAll home ms) ⟨x, k⟩ = .ok () ⟨y, k⟩) :
    Settles home ms l (· = y) ((Edit.orExhausted (adoptMembersIn home ms) >>= g) ⟨x, l⟩) := by
  refine ⟨fun fits => ?_, fun overfull => ?_⟩
  · obtain ⟨k, adopted⟩ := fits.adopt
    have done := (bind_of_ok (Edit.orExhausted_of_ok adopted x)).trans (puts k)
    exact ⟨_, done, rfl, .of_adopted adopted⟩
  · obtain ⟨bytes, k, refused⟩ := Fits.refused overfull
    exact ⟨bytes, _, bind_of_error (Edit.charge_of_error refused _ x)⟩

/-- One step of a loop over members. A known key leaves its member aside, at no cost. -/
structure TakesNew (home : Home) (put : τ → σ) (step : τ → Member Value → τ)
    (known : τ → String → Prop) (e : Member Value → Edit σ PUnit) : Prop where
  known_step : ∀ y m key, known (step y m) key ↔ key = m.key ∨ known y key
  aside : ∀ {y m} l, known y m.key → e m ⟨put y, l⟩ = .ok ⟨⟩ ⟨put (step y m), l⟩
  taken : ∀ {y m l v k}, ¬ known y m.key → m.value.adoptIn home l = .ok v k →
    e m ⟨put y, l⟩ = .ok ⟨⟩ ⟨put (step y m), k⟩
  refused : ∀ {y m l r k}, ¬ known y m.key → m.value.adoptIn home l = .error r k →
    e m ⟨put y, l⟩ = .error r.unreported ⟨put y, k⟩

theorem TakesNew.settles {home : Home} {put : τ → σ} {step : τ → Member Value → τ}
    {known : τ → String → Prop} {e : Member Value → Edit σ PUnit}
    (takes : TakesNew home put step known e) (ms : List (Member Value)) {y : τ}
    {keys : List String} (start : ∀ key, key ∈ keys ↔ known y key) (l : Ledger) :
    Settles home (newcomers keys ms) l (· = put (ms.foldl step y))
      ((ms.forM e : Edit σ PUnit) ⟨put y, l⟩) := by
  induction ms generalizing y keys l with
  | nil =>
    exact ⟨fun _ => ⟨_, rfl, rfl, .nil home l⟩, fun overfull => absurd (.nil home l) overfull⟩
  | cons m ms ih =>
    change Settles _ _ _ _ ((e m >>= fun _ => ms.forM e) ⟨put y, l⟩)
    unfold newcomers
    -- `keys` are those that the loop knows by now, what it has taken in included.
    by_cases here : m.key ∈ keys
    · have same : ∀ key, key ∈ keys ↔ known (step y m) key := by
        intro key
        rw [takes.known_step, ← start]
        exact ⟨.inr, fun or => or.elim (· ▸ here) id⟩
      rw [if_pos here, bind_of_ok (takes.aside l ((start _).mp here))]
      exact ih same l
    · have unknown : ¬ known y m.key := fun held => here ((start _).mpr held)
      have grown : ∀ key, key ∈ m.key :: keys ↔ known (step y m) key := by
        intro key
        rw [takes.known_step, ← start, List.mem_cons]
      rw [if_neg here]
      cases adopted : m.value.adoptIn home l with
      | ok v k =>
        have rest := ih grown k
        have fits_iff : Fits home (m :: newcomers (m.key :: keys) ms) l ↔ _ :=
          Fits.cons_iff adopted
        rw [bind_of_ok (takes.taken unknown adopted)]
        refine ⟨fun fits => ?_, fun overfull => rest.overfull (mt fits_iff.mpr overfull)⟩
        obtain ⟨s, done, left, paid⟩ := rest.fitting (fits_iff.mp fits)
        exact ⟨s, done, left, .cons adopted paid⟩
      | error r k =>
        obtain ⟨bytes, rfl⟩ := Value.adoptIn_copying home m.value _ _ _ adopted
        refine ⟨fun fits => ?_, fun _ => ⟨bytes, _, bind_of_error (takes.refused unknown adopted)⟩⟩
        obtain ⟨_, given, -⟩ := fits.head
        rw [adopted] at given
        cases given

namespace KeyedMap

end KeyedMap

namespace PlainList

end PlainList

namespace Object

def SameMembers (o p : Object Value) : Prop := o.home = p.home ∧ o.members = p.members

theorem Lists.settled {o p : Object Value} {d : KeyedMap} (first : Lists o d)
    (second : Lists p d) : SameMembers o p :=
  ⟨first.home.trans second.home.symm, first.members.trans second.members.symm⟩

end Object

namespace InsertionObject

structure SameIndexed (o p : InsertionObject Value) : Prop where
  home : o.home = p.home
  members : o.members = p.members
  index : o.index = p.index

theorem Views.settled {o p : InsertionObject Value} {d : PlainList} (first : Views o d)
    (second : Views p d) : SameIndexed o p := by
  have same := first.2.trans second.2.symm
  have members : o.members = p.members := congrArg PlainList.members same
  refine ⟨congrArg PlainList.home same, members, ?_⟩
  -- There is only one sound index for the members.
  rw [first.1.index_eq, second.1.index_eq, members]

end InsertionObject

def sampleLetters : InsertionObject Value :=
  leftBy ((ObjectOp.tryEmplace "c" (.ofBool false)).run ⟨.empty .heap, []⟩)

theorem sampleLetters_built : sampleLetters.Built :=
  .run _ [] (.empty .heap) trivial (List.forall_mem_singleton.mpr (.leaf _ _))

end DocTree
