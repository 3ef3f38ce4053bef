import DocTree.Proofs.KeptValues

/-!
Values that stand where they belong. Adoption takes what belongs to the arena already as it is, so
everything in a container of the arena has to belong there before.
-/

namespace DocTree

/-- Plain data and inline text belong everywhere, payloads where they are, the empty object to no
arena. -/
def Leaf.BelongsTo (n : Nat) : Leaf → Prop
  | text home s => isInline s = true ∨ home = .arena n
  | bytes home _ => home = .arena n
  | emptyObject => False
  | _ => True

namespace Value

def BelongsTo (n : Nat) : Value → Prop
  | leaf _ x => x.BelongsTo n
  | array _ s => s.home = .arena n
  | object _ o => o.home = .arena n
  | ref .. => True

/-- A value is `w` or has it as a part, at any depth. References are not entered. -/
inductive Inside (w : Value) : Value → Prop
  | self : Inside w w
  | item (t : Tag) {s : Sequence Value} {v : Value} :
      v ∈ s.items → Inside w v → Inside w (.array t s)
  | member (t : Tag) {o : Object Value} {m : Member Value} :
      m ∈ o.members → Inside w m.value → Inside w (.object t o)

def Contained (n : Nat) (v : Value) : Prop := ∀ w, Inside w v → w.BelongsTo n

def Suits (home : Home) (v : Value) : Prop := ∀ n, home = .arena n → v.BelongsTo n

/-- A value may stand in a container of `home`, and its parts may stand where they do. -/
inductive Lodged : Home → Value → Prop
  | leaf {home : Home} (t : Tag) {x : Leaf} : (leaf t x).Suits home → Lodged home (.leaf t x)
  | array {home : Home} (t : Tag) {s : Sequence Value} : (array t s).Suits home →
      (∀ v ∈ s.items, Lodged s.home v) → Lodged home (.array t s)
  | object {home : Home} (t : Tag) {o : Object Value} : (object t o).Suits home →
      (∀ m ∈ o.members, Lodged o.home m.value) → Lodged home (.object t o)
  | ref {home : Home} (t : Tag) {v : Value} : Lodged .heap v → Lodged home (.ref t v)

theorem suits_heap (v : Value) : v.Suits .heap := nofun

theorem suits_arena {n : Nat} {v : Value} (belongs : v.BelongsTo n) : v.Suits (.arena n) := by
  rintro _ ⟨⟩
  exact belongs

end Value

theorem Leaf.housed_belongsTo (n : Nat) {x : Leaf} (full : x ≠ .emptyObject) :
    (x.housed n).BelongsTo n := by
  cases x with
  | text home s =>
    simp only [housed]
    split
    · rename_i here
      simpa only [BelongsTo, Bool.or_eq_true, decide_eq_true_eq] using here
    · exact .inr rfl
  | bytes home b => exact rfl
  | emptyObject => exact absurd rfl full
  | _ => trivial

namespace Value.Lodged

variable {home other : Home} {n : Nat} {v : Value}

theorem suits (lodged : v.Lodged home) : v.Suits home := by
  cases lodged with
  | leaf _ suits => exact suits
  | array _ suits _ => exact suits
  | object _ suits _ => exact suits
  | ref => exact fun _ _ => trivial

theorem moved (lodged : v.Lodged home) (suits : v.Suits other) : v.Lodged other := by
  cases lodged with
  | leaf t _ => exact .leaf t suits
  | array t _ items => exact .array t suits items
  | object t _ members => exact .object t suits members
  | ref t target => exact .ref t target

theorem freed (lodged : v.Lodged home) : v.Lodged .heap := lodged.moved v.suits_heap

theorem contained (lodged : v.Lodged (.arena n)) : v.Contained n := by
  intro w inside
  induction inside with
  | self => exact lodged.suits n rfl
  | item t isIn _ ih =>
    cases lodged with
    | array _ suits items =>
      have here := items _ isIn
      rw [suits n rfl] at here
      exact ih here
  | member t isIn _ ih =>
    cases lodged with
    | object _ suits members =>
      have here := members _ isIn
      rw [suits n rfl] at here
      exact ih here

theorem resolve (lodged : v.Lodged home) : v.resolve.Lodged .heap := by
  induction lodged with
  | leaf t suits => exact .leaf t (suits_heap _)
  | array t suits items _ => exact .array t (suits_heap _) items
  | object t suits members _ => exact .object t (suits_heap _) members
  | ref _ _ ih => exact ih

theorem follow (lodged : v.Lodged home) : v.follow.Lodged .heap := by
  cases lodged with
  | leaf t suits => exact .leaf t (suits_heap _)
  | array t suits items => exact .array t (suits_heap _) items
  | object t suits members => exact .object t (suits_heap _) members
  | ref _ target => exact target

theorem withTag (lodged : v.Lodged home) (t : Tag) : (v.withTag t).Lodged home := by
  cases lodged with
  | leaf _ suits => exact .leaf t suits
  | array _ suits items => exact .array t suits items
  | object _ suits members => exact .object t suits members
  | ref _ target => exact .ref t target

theorem promote (lodged : v.Lodged home) : v.promote.Lodged home := by
  cases lodged with
  | @leaf _ t x suits =>
    cases x with
    -- No arena has an empty object to promote.
    | emptyObject => exact .object t (fun n here => (suits n here).elim) nofun
    | _ => exact .leaf t suits
  | array t suits items => exact .array t suits items
  | object t suits members => exact .object t suits members
  | ref t target => exact .ref t target

/-- The invariant carries adoption past the containers that it does not enter. -/
theorem housed (lodged : v.Lodged home) (n : Nat) : (v.housed n).Lodged (.arena n) := by
  induction lodged with
  | @leaf _ t x _ =>
    by_cases empty : x = .emptyObject
    · subst empty
      exact .object t (suits_arena rfl) nofun
    · rw [housed_leaf n t empty]
      exact .leaf t (suits_arena (Leaf.housed_belongsTo n empty))
  | array t _ items ih =>
    unfold Value.housed
    split
    · rename_i here
      exact .array t (suits_arena here) items
    · refine .array t (suits_arena rfl) ?_
      simpa only [housedItems_eq_map, List.forall_mem_map] using ih
  | object t _ members ih =>
    unfold Value.housed
    split
    · rename_i here
      exact .object t (suits_arena here) members
    · refine .object t (suits_arena rfl) ?_
      simpa only [housedMembers_eq_map, List.forall_mem_map] using ih
  | ref t target _ => exact .ref t target

theorem shrinkToFit (lodged : v.Lodged home) : v.shrinkToFit.Lodged home := by
  induction lodged with
  | leaf t suits => exact .leaf t suits
  | array t suits _ ih =>
    refine .array t suits ?_
    simpa only [shrinkItems_eq_map, List.forall_mem_map] using ih
  | object t suits _ ih =>
    refine .object t suits ?_
    simpa only [shrinkMembers_eq_map, mapMembers, List.forall_mem_map] using ih
  | ref t target _ => exact .ref t target

theorem lasting : Lasting Lodged where
  housed {home _} lodged := by
    cases home with
    | heap => exact lodged
    | arena n => exact lodged.housed n
  freed lodged := lodged.freed
  shrunk lodged := lodged.shrinkToFit

theorem layered : Layered Lodged (Carries Lodged) where
  toLasting := lasting
  toEditable := Object.editable lasting
  leaf t _ := .leaf t (suits_heap _)
  null t := .leaf t fun _ _ => trivial
  withTag t lodged := lodged.withTag t
  resolve lodged := lodged.resolve
  promote lodged := lodged.promote
  items
    | .array _ _ items => items
  withItems
    | .array _ suits _, held =>
      .array _ (fun n here => held.1.trans (suits n here)) held.own
  empty := ⟨rfl, nofun⟩
  values held := held.2
  object
    | .object _ _ members => ⟨rfl, members⟩
  withMembers
    | .object _ suits _, held =>
      .object _ (fun n here => held.1.trans (suits n here)) held.own.2

end Value.Lodged

end DocTree
