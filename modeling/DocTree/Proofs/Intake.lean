import DocTree.Proofs.PathWrites
import DocTree.Proofs.Refusals

namespace DocTree

structure Payload where
  home : Home
  content : String ⊕ List UInt8

namespace Value

def payload? : Value → Option Payload
  | leaf _ (.text home s) => if isInline s then none else some ⟨home, .inl s⟩
  | leaf _ (.bytes home b) => some ⟨home, .inr b⟩
  | _ => none

def parts : Value → List Value
  | array _ s => s.items
  | object _ o => o.members.map Member.value
  | _ => []

/-- The part at a place, which is a list of positions. References are not entered. -/
def part? (v : Value) : List Nat → Option Value
  | [] => some v
  | i :: place => v.parts[i]?.bind fun w => w.part? place

def IsContainerOf (n : Nat) : Value → Prop
  | array _ s => s.home = .arena n
  | object _ o => o.home = .arena n
  | _ => False

/-- There is a container of the arena on the way to a place, and the place is inside it. -/
def Sealed (n : Nat) (v : Value) : List Nat → Prop
  | [] => False
  | i :: place => v.IsContainerOf n ∨ ∃ w, v.parts[i]? = some w ∧ w.Sealed n place

theorem housed_of_container {n : Nat} {v : Value} (here : v.IsContainerOf n) :
    v.housed n = v := by
  cases v with
  | array t s =>
    unfold housed
    exact if_pos here
  | object t o =>
    unfold housed
    exact if_pos here
  | _ => cases here

theorem parts_housed {n : Nat} {v : Value} (elsewhere : ¬ v.IsContainerOf n) :
    (v.housed n).parts = v.parts.map (housed n) := by
  cases v with
  | leaf t x => cases x <;> rfl
  | array t s =>
    have other : s.home ≠ .arena n := elsewhere
    unfold housed
    rw [if_neg other, housedItems_eq_map]
    rfl
  | object t o =>
    have other : o.home ≠ .arena n := elsewhere
    unfold housed
    rw [if_neg other, housedMembers_eq_map]
    simp [parts]
  | ref t w => rfl

theorem part?_housed_of_sealed {n : Nat} {place : List Nat} :
    ∀ {v : Value}, v.Sealed n place → (v.housed n).part? place = v.part? place := by
  induction place with
  | nil => exact fun inside => inside.elim
  | cons i place ih =>
    intro v inside
    by_cases here : v.IsContainerOf n
    · rw [housed_of_container here]
    · obtain ⟨w, at_i, inside⟩ := inside.resolve_left here
      rw [part?, part?, parts_housed here, List.getElem?_map, at_i]
      exact ih inside

theorem part?_housed_of_open {n : Nat} {place : List Nat} :
    ∀ {v : Value}, ¬ v.Sealed n place →
      (v.housed n).part? place = (v.part? place).map (housed n) := by
  induction place with
  | nil => exact fun _ => rfl
  | cons i place ih =>
    intro v outside
    have elsewhere : ¬ v.IsContainerOf n := fun here => outside (.inl here)
    rw [part?, part?, parts_housed elsewhere, List.getElem?_map]
    cases at_i : v.parts[i]? with
    | none => rfl
    | some w => exact ih fun inside => outside (.inr ⟨w, at_i, inside⟩)

theorem payload?_housed (n : Nat) (v : Value) :
    (v.housed n).payload? = v.payload?.map fun p => { p with home := .arena n } := by
  cases v with
  | leaf t x =>
    cases x with
    | text home s =>
      cases short : isInline s with
      | true => simp [housed, Leaf.housed, payload?, short]
      | false =>
        by_cases here : home = .arena n <;> simp [housed, Leaf.housed, payload?, short, here]
    | bytes home b => rfl
    | _ => rfl
  | array t s =>
    unfold housed
    split <;> rfl
  | object t o =>
    unfold housed
    split <;> rfl
  | ref t w => rfl

def payloadAt? (v : Value) (place : List Nat) : Option Payload := (v.part? place).bind payload?

theorem payloadAt?_housed_of_sealed {n : Nat} {v : Value} {place : List Nat}
    (inside : v.Sealed n place) : (v.housed n).payloadAt? place = v.payloadAt? place := by
  rw [payloadAt?, part?_housed_of_sealed inside, payloadAt?]

theorem payloadAt?_housed_of_open {n : Nat} {v : Value} {place : List Nat}
    (outside : ¬ v.Sealed n place) : (v.housed n).payloadAt? place =
      (v.payloadAt? place).map fun p => { p with home := .arena n } := by
  rw [payloadAt?, part?_housed_of_open outside, payloadAt?]
  cases v.part? place with
  | none => rfl
  | some w => exact w.payload?_housed n

/-- How a container of arena `n` stores a value. -/
structure TakenIn (n : Nat) (v w : Value) : Prop where
  content : ∀ place, (w.payloadAt? place).map Payload.content =
    (v.payloadAt? place).map Payload.content
  outside : ∀ place p, ¬ v.Sealed n place → w.payloadAt? place = some p → p.home = .arena n
  inside : ∀ place, v.Sealed n place → w.payloadAt? place = v.payloadAt? place
  /-- So all are in the arena if and only if those inside containers of it were. -/
  all : (∀ place p, w.payloadAt? place = some p → p.home = .arena n) ↔
    ∀ place p, v.Sealed n place → v.payloadAt? place = some p → p.home = .arena n

theorem housed_takenIn (n : Nat) (v : Value) : TakenIn n v (v.housed n) := by
  have outside : ∀ place p, ¬ v.Sealed n place → (v.housed n).payloadAt? place = some p →
      p.home = .arena n := by
    intro place p free found
    rw [payloadAt?_housed_of_open free] at found
    obtain ⟨_, -, rfl⟩ := Option.map_eq_some_iff.mp found
    rfl
  refine ⟨fun place => ?_, outside, fun _ => payloadAt?_housed_of_sealed, ?_, ?_⟩
  · by_cases shut : v.Sealed n place
    · rw [payloadAt?_housed_of_sealed shut]
    · rw [payloadAt?_housed_of_open shut, Option.map_map]
      rfl
  · intro every place p shut found
    exact every place p (payloadAt?_housed_of_sealed shut ▸ found)
  · intro before place p found
    by_cases shut : v.Sealed n place
    · exact before place p shut (payloadAt?_housed_of_sealed shut ▸ found)
    · exact outside place p shut found

end Value

theorem Value.housed_housed (n : Nat) (v : Value) : (v.housed n).housed n = v.housed n := by
  cases v with
  | leaf t x =>
    cases x with
    | text home s =>
      cases short : isInline s with
      | true => simp [housed, Leaf.housed, short]
      | false => by_cases here : home = .arena n <;> simp [housed, Leaf.housed, short, here]
    | emptyObject => exact housed_of_container rfl
    | _ => rfl
  | array t s =>
    by_cases here : s.home = .arena n
    · rw [housed, if_pos here, housed, if_pos here]
    · rw [housed, if_neg here, housed, if_pos rfl]
  | object t o =>
    by_cases here : o.home = .arena n
    · rw [housed, if_pos here, housed, if_pos here]
    · rw [housed, if_neg here, housed, if_pos rfl]
  | ref t w => rfl

def Houses {σ β : Type} (n : Nat) (v : Value) (op : Edit σ β) (x : σ)
    (stored : σ → Value → Prop) : Prop :=
  ∀ l b t, op ⟨x, l⟩ = .ok b t → stored t.subject (v.housed n)

namespace Houses

variable {σ β : Type} {n : Nat} {v : Value} {x : σ} {stored : σ → Value → Prop}

theorem subject_bind {g : σ → Edit σ β} (next : Houses n v (g x) x stored) :
    Houses n v (Edit.subject >>= g) x stored :=
  next

theorem of_adoption {onRefusal : Refusal → Failure} {g : Value → Edit σ β}
    (stores : ∀ l b t, g (v.housed n) ⟨x, l⟩ = .ok b t → stored t.subject (v.housed n)) :
    Houses n v (Edit.charge onRefusal (v.adoptIn (.arena n)) >>= g) x stored := by
  intro l b t done
  obtain ⟨w, u, charged, rest⟩ := bind_eq_ok done
  unfold Edit.charge at charged
  cases adopted : v.adoptIn (.arena n) l with
  | ok a m =>
    simp only [adopted, EStateM.Result.ok.injEq] at charged
    obtain ⟨rfl, rfl⟩ := charged
    obtain rfl := Value.adoptIn_ok adopted
    exact stores m b t rest
  | error r m => simp only [adopted, reduceCtorEq] at charged

theorem map {γ : Type} {e : Edit σ β} (houses : Houses n v e x stored) (f : β → γ) :
    Houses n v (f <$> e) x stored := by
  intro l c t done
  obtain ⟨b, _, first, ⟨⟩⟩ := bind_eq_ok done
  exact houses l b t first

theorem zoom {τ : Type} {e : Edit σ β} (houses : Houses n v e x stored) (putBack : σ → τ) (y : τ) :
    Houses n v (Edit.zoom x putBack e) y fun z w => ∃ u, z = putBack u ∧ stored u w := by
  intro l b t done
  obtain ⟨u, edited, rfl⟩ := Edit.zoom_eq_ok_iff.mp done
  exact ⟨u.subject, rfl, houses l b u edited⟩

end Houses

namespace Sequence

variable {n : Nat} {s : Sequence Value}

theorem push_houses (home : s.home = .arena n) (v : Value) :
    Houses n v (push v) s fun u w => u.items = s.items ++ [w] := by
  refine .subject_bind ?_
  rw [home]
  refine .of_adoption fun l b t done => ?_
  cases done
  rfl

theorem tryPush_houses (home : s.home = .arena n) (v : Value) :
    Houses n v (tryPush v) s fun u w => u.items = s.items ++ [w] := by
  refine .subject_bind ?_
  rw [home]
  refine .of_adoption fun l b t done => ?_
  cases done
  rfl

theorem insert_houses (home : s.home = .arena n) (pos : Nat) (v : Value) :
    Houses n v (insert pos v) s fun u w => u.items = s.items.insertIdx pos w := by
  refine .subject_bind ?_
  rw [home]
  refine .of_adoption fun l b t done => ?_
  rw [subject_bind] at done
  dsimp only at done
  split at done
  · cases done
  · cases done
    rfl

end Sequence

theorem mem_modify_value {ms : List (Member Value)} {pos : Nat} {key : String}
    (here : (ms.map Member.key)[pos]? = some key) (w : Value) :
    ⟨key, w⟩ ∈ ms.modify pos fun m => { m with value := w } := by
  rw [List.getElem?_map] at here
  obtain ⟨m, at_pos, rfl⟩ := Option.map_eq_some_iff.mp here
  refine List.mem_of_getElem? (i := pos) ?_
  rw [List.getElem?_modify_eq, at_pos]
  rfl

namespace Object

variable {n : Nat} {o : Object Value}

theorem insertOrAssign_houses (ordered : o.Ordered) (home : o.home = .arena n) (key : String)
    (v : Value) : Houses n v (insertOrAssign key v) o fun p w => ⟨key, w⟩ ∈ p.members := by
  refine .subject_bind (.subject_bind ?_)
  dsimp only
  rw [home]
  split
  · rename_i found
    rw [if_pos rfl]
    refine .of_adoption fun l b t done => ?_
    cases done
    exact mem_modify_value (by rwa [List.getElem?_map]) _
  · refine .of_adoption fun l b t done => ?_
    cases done
    exact (List.mem_insertIdx (ordered.lowerBound_le_length key)).mpr (.inl rfl)

theorem tryInsertOrAssign_houses (ordered : o.Ordered) (home : o.home = .arena n) (key : String)
    (v : Value) : Houses n v (tryInsertOrAssign key v) o fun p w => ⟨key, w⟩ ∈ p.members := by
  refine .subject_bind ?_
  rw [home]
  refine .of_adoption fun l b t done => ?_
  have stored := insertOrAssign_houses ordered home key (v.housed n) l b t done
  rwa [Value.housed_housed] at stored

end Object

namespace InsertionObject

variable {n : Nat} {o : InsertionObject Value}

theorem insertOrAssign_houses (sound : o.Indexed) (home : o.home = .arena n) (key : String)
    (v : Value) : Houses n v (insertOrAssign key v) o fun p w => ⟨key, w⟩ ∈ p.members := by
  refine .subject_bind (.subject_bind ?_)
  dsimp only
  rw [home]
  cases found : o.find? key with
  | some pos =>
    dsimp only
    rw [if_pos rfl]
    refine .of_adoption fun l b t done => ?_
    cases done
    exact mem_modify_value ((sound.find?_eq_some_iff key pos).mp found) _
  | none =>
    refine .of_adoption fun l b t done => ?_
    cases done
    exact (List.mem_insertIdx le_rfl).mpr (.inl rfl)

theorem tryInsertOrAssign_houses (sound : o.Indexed) (home : o.home = .arena n) (key : String)
    (v : Value) : Houses n v (tryInsertOrAssign key v) o fun p w => ⟨key, w⟩ ∈ p.members := by
  refine .subject_bind ?_
  rw [home]
  refine .of_adoption fun l b t done => ?_
  have stored := insertOrAssign_houses sound home key (v.housed n) l b t done
  rwa [Value.housed_housed] at stored

end InsertionObject

namespace Value

variable {n : Nat} {s : Sequence Value}

theorem push_houses (home : s.home = .arena n) (v : Value) (t : Tag) :
    Houses n v (push v) (array t s) fun u w =>
      ∃ r : Sequence Value, u = array t r ∧ r.items = s.items ++ [w] :=
  (Sequence.push_houses home v).zoom (array t) (array t s)

theorem insert_houses (home : s.home = .arena n) (pos : Nat) (v : Value) (t : Tag) :
    Houses n v (insert pos v) (array t s) fun u w =>
      ∃ r : Sequence Value, u = array t r ∧ r.items = s.items.insertIdx pos w := by
  have checked : Houses n v
      (do
        let s ← Edit.subject
        if s.length < pos then Edit.fail (.outOfRange pos s.length)
        discard (Sequence.insert pos v))
      s fun r w => r.items = s.items.insertIdx pos w := by
    refine .subject_bind ?_
    dsimp only
    split
    · rintro l b u ⟨⟩
    · exact (Sequence.insert_houses home pos v).map fun _ => ()
  exact checked.zoom (array t) (array t s)

theorem insertOrAssign_houses {o : Object Value} (ordered : o.Ordered) (home : o.home = .arena n)
    (key : String) (v : Value) (t : Tag) :
    Houses n v (insertOrAssign key v) (object t o) fun u w =>
      ∃ p : Object Value, u = object t p ∧ ⟨key, w⟩ ∈ p.members :=
  ((Object.insertOrAssign_houses ordered home key v).map _).zoom (object t) (object t o)

end Value

def TakesIn {σ β : Type} (n : Nat) (v : Value) (op : Edit σ β) (x : σ)
    (stored : σ → Value → Prop) : Prop :=
  ∀ l b t, op ⟨x, l⟩ = .ok b t → ∃ w, stored t.subject w ∧ v.TakenIn n w

theorem Houses.takesIn {σ β : Type} {n : Nat} {v : Value} {op : Edit σ β} {x : σ}
    {stored : σ → Value → Prop} (houses : Houses n v op x stored) : TakesIn n v op x stored :=
  fun l b t done => ⟨_, houses l b t done, v.housed_takenIn n⟩

/-- A container of an arena copies the payloads of what it stores into the arena, but for those
inside containers of the arena, which it takes as they are. -/
theorem payloads_are_taken_in (n : Nat) (v : Value) (t : Tag) (pos : Nat) (key : String) :
    (∀ s : Sequence Value, s.home = .arena n →
      TakesIn n v (Sequence.push v) s (fun u w => u.items = s.items ++ [w]) ∧
      TakesIn n v (Sequence.tryPush v) s (fun u w => u.items = s.items ++ [w]) ∧
      TakesIn n v (Sequence.insert pos v) s (fun u w => u.items = s.items.insertIdx pos w) ∧
      TakesIn n v (Value.push v) (.array t s) (fun u w =>
        ∃ r : Sequence Value, u = .array t r ∧ r.items = s.items ++ [w]) ∧
      TakesIn n v (Value.insert pos v) (.array t s) (fun u w =>
        ∃ r : Sequence Value, u = .array t r ∧ r.items = s.items.insertIdx pos w)) ∧
    (∀ o : Object Value, o.Built → o.home = .arena n →
      TakesIn n v (Object.insertOrAssign key v) o (fun p w => ⟨key, w⟩ ∈ p.members) ∧
      TakesIn n v (Object.tryInsertOrAssign key v) o (fun p w => ⟨key, w⟩ ∈ p.members) ∧
      TakesIn n v (Value.insertOrAssign key v) (.object t o) (fun u w =>
        ∃ p : Object Value, u = .object t p ∧ ⟨key, w⟩ ∈ p.members)) ∧
    ∀ o : InsertionObject Value, o.Built → o.home = .arena n →
      TakesIn n v (InsertionObject.insertOrAssign key v) o (fun p w => ⟨key, w⟩ ∈ p.members) ∧
      TakesIn n v (InsertionObject.tryInsertOrAssign key v) o
        (fun p w => ⟨key, w⟩ ∈ p.members) := by
  refine ⟨fun s home => ⟨?_, ?_, ?_, ?_, ?_⟩, fun o built home => ⟨?_, ?_, ?_⟩,
    fun o built home => ⟨?_, ?_⟩⟩
  · exact (Sequence.push_houses home v).takesIn
  · exact (Sequence.tryPush_houses home v).takesIn
  · exact (Sequence.insert_houses home pos v).takesIn
  · exact (Value.push_houses home v t).takesIn
  · exact (Value.insert_houses home pos v t).takesIn
  · exact (Object.insertOrAssign_houses built.ordered home key v).takesIn
  · exact (Object.tryInsertOrAssign_houses built.ordered home key v).takesIn
  · exact (Value.insertOrAssign_houses built.ordered home key v t).takesIn
  · exact (InsertionObject.insertOrAssign_houses built.indexed home key v).takesIn
  · exact (InsertionObject.tryInsertOrAssign_houses built.indexed home key v).takesIn

def sampleNote : String := "a note that is too long to be held inline"

theorem payloads_are_taken_in_sample :
    ∃ t, Sequence.push (.ofText sampleNote) ⟨.empty (.arena 0), [{}]⟩ = .ok () t ∧
      ∃ w, t.subject.items = [] ++ [w] ∧ (Value.ofText sampleNote).TakenIn 0 w :=
  ⟨_, rfl, ((payloads_are_taken_in 0 (.ofText sampleNote) .plain 0 "").1 (.empty (.arena 0)) rfl).1
    [{}] () _ rfl⟩

def sampleOverwritten : Value :=
  leftBy (Value.editSlots [.index 0] (ValueOp.assign (.ofText sampleNote)).run
    ⟨.array .plain ⟨.arena 0, 1, [.null]⟩, [{}]⟩)

/-- Another array of the arena takes it as it is. The text stays on the heap. -/
theorem overwritten_text_stays_out :
    sampleOverwritten.Built ∧
      sampleOverwritten.payloadAt? [0] = some ⟨.heap, .inl sampleNote⟩ ∧
      ∃ t, Sequence.push sampleOverwritten ⟨.empty (.arena 0), [{}]⟩ = .ok () t ∧
        t.subject.items = [sampleOverwritten] ∧ (t.ledger.account 0).used = 0 := by
  have start : (Value.array .plain ⟨.arena 0, 1, [.null]⟩).Built :=
    .array _ (.filled fun v isIn => List.mem_singleton.mp isIn ▸ .leaf _ _)
  have long : isInline sampleNote = false := by decide
  refine ⟨.written [.index 0] (.assign (.ofText sampleNote)) [{}] start ?_, ?_, _, rfl, rfl, rfl⟩
  · intro w isIn
    exact List.mem_singleton.mp isIn ▸ .leaf _ _
  · change (if isInline sampleNote then none else some _) = _
    rw [long]
    rfl

end DocTree
