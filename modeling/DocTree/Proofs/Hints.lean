import DocTree.Proofs.Built

namespace DocTree.Object

def Selfsame (o p : Object Value) : Prop := o = p ∧ o.Ordered

section Rules

variable {α β : Type}

theorem Selfsame.alike {r : EStateM.Result Failure (Scene (Object Value)) α}
    (left : Ordered (leftBy r)) : Alike Selfsame Eq r r := by
  cases r with
  | ok a s => exact .ok rfl ⟨rfl, left⟩
  | error f s => exact .error ⟨rfl, left⟩

theorem Selfsame.eq {r q : EStateM.Result Failure (Scene (Object Value)) α}
    (alike : Alike Selfsame Eq r q) : r = q := by
  cases alike with
  | ok same matched => rw [same, matched.1]
  | error matched => rw [matched.1]

theorem Selfsame.lockstep {e : Edit (Object Value) α} {f : Edit KeyedMap β}
    {A : α → β → Prop} (same : Lockstep Lists A e f) : Lockstep Selfsame Eq e e := by
  rintro o _ l ⟨rfl, ordered⟩
  exact Selfsame.alike (same o _ l ordered.lists).matched.ordered

end Rules

section Single

variable {o : Object Value}

theorem Ordered.insertOrAssignHint_eq (ordered : o.Ordered) (hint : Nat) (key : String)
    (v : Value) (l : Ledger) :
    insertOrAssignHint hint key v ⟨o, l⟩ = (Prod.fst <$> insertOrAssign key v) ⟨o, l⟩ := by
  unfold insertOrAssignHint
  rw [subject_bind]
  dsimp only
  rw [ordered.lowerBound_searchStart hint key]
  rfl

theorem Ordered.tryEmplaceHint_eq (ordered : o.Ordered) (hint : Nat) (key : String)
    (v : Value) (l : Ledger) :
    tryEmplaceHint hint key v ⟨o, l⟩ = (Prod.fst <$> tryEmplace key v) ⟨o, l⟩ := by
  unfold tryEmplaceHint
  rw [subject_bind]
  dsimp only
  rw [ordered.lowerBound_searchStart hint key]
  rfl

end Single

section Merging

variable {insert : String → Value → Edit (Object Value) (Nat × Bool)}
variable {insertHint : Nat → String → Value → Edit (Object Value) Nat}

theorem mergeFrom_eq (plain : ∀ key v, Lockstep Selfsame Eq (insert key v) (insert key v))
    (hinted : ∀ {o : Object Value}, o.Ordered → ∀ hint key v l,
      insertHint hint key v ⟨o, l⟩ = (Prod.fst <$> insert key v) ⟨o, l⟩)
    {o : Object Value} (ordered : o.Ordered) (hint : Nat) (ms : List (Member Value)) (l : Ledger) :
    (discard (ms.foldlM (fun hint m => insertHint hint m.key m.value) hint) :
        Edit (Object Value) Unit) ⟨o, l⟩ =
      (ms.forM fun m => discard (insert m.key m.value) : Edit (Object Value) Unit) ⟨o, l⟩ := by
  have step : ∀ hint, ∀ m ∈ ms, Lockstep Selfsame (fun _ _ => True)
      (insertHint hint m.key m.value) (discard (insert m.key m.value)) := by
    rintro hint m - o _ l ⟨rfl, ordered⟩
    -- The object that this step meets is ordered again, and its hint needs nothing else.
    rw [hinted ordered]
    have same := plain m.key m.value o o l ⟨rfl, ordered⟩
    have placed : Alike Selfsame (fun pos (there : Nat × Bool) => pos = there.1) _ _ :=
      same.mapLeft Prod.fst fun _ _ => congrArg Prod.fst
    exact placed.mapRight _ fun _ _ _ => trivial
  have loop := Lockstep.foldlM_forM step hint o o l ⟨rfl, ordered⟩
  exact Selfsame.eq (loop.mapLeft _ fun _ _ _ => rfl)

theorem Ordered.mergeHint_eq {o : Object Value} (ordered : o.Ordered) (hint : Nat)
    (source : Object Value) (l : Ledger) : mergeHint hint source ⟨o, l⟩ = merge source ⟨o, l⟩ :=
  mergeFrom_eq (fun key v => Selfsame.lockstep (tryEmplace_lockstep key v))
    tryEmplaceHint_eq ordered hint source.members l

theorem Ordered.mergeOrUpdateHint_eq {o : Object Value} (ordered : o.Ordered) (hint : Nat)
    (source : Object Value) (l : Ledger) :
    mergeOrUpdateHint hint source ⟨o, l⟩ = mergeOrUpdate source ⟨o, l⟩ :=
  mergeFrom_eq (fun key v => Selfsame.lockstep (insertOrAssign_lockstep key v))
    insertOrAssignHint_eq ordered hint source.members l

end Merging

/-- With and without a hint everything is the same: the members that are left, the position that is
answered, what is charged and how it fails. -/
structure Indifferent (o : Object Value) (hint : Nat) (l : Ledger) : Prop where
  insertOrAssign : ∀ key v, insertOrAssignHint hint key v ⟨o, l⟩ =
    (Prod.fst <$> Object.insertOrAssign key v) ⟨o, l⟩
  tryEmplace : ∀ key v, tryEmplaceHint hint key v ⟨o, l⟩ =
    (Prod.fst <$> Object.tryEmplace key v) ⟨o, l⟩
  merge : ∀ source, mergeHint hint source ⟨o, l⟩ = Object.merge source ⟨o, l⟩
  mergeOrUpdate : ∀ source, mergeOrUpdateHint hint source ⟨o, l⟩ =
    Object.mergeOrUpdate source ⟨o, l⟩

/-- No hint changes what an operation does, nor does the hint that a merge starts with. -/
theorem hints_change_nothing (o : Object Value) (built : o.Built) (hint : Nat) (l : Ledger) :
    Indifferent o hint l where
  insertOrAssign key v := built.ordered.insertOrAssignHint_eq hint key v l
  tryEmplace key v := built.ordered.tryEmplaceHint_eq hint key v l
  merge source := built.ordered.mergeHint_eq hint source l
  mergeOrUpdate source := built.ordered.mergeOrUpdateHint_eq hint source l

def sampleTwo : Object Value :=
  leftBy ((ObjectOp.extendSortedUnique [⟨"b", .null⟩, ⟨"d", .null⟩]).run ⟨empty .heap, []⟩)

theorem sampleTwo_built : sampleTwo.Built := by
  refine .run (.extendSortedUnique _) [] (.empty .heap) ⟨?_, ?_⟩ ?_
  · unfold AscendingBy
    decide
  · intro m _ present
    cases present
  · exact List.forall_mem_cons.mpr ⟨.leaf _ _, List.forall_mem_singleton.mpr (.leaf _ _)⟩

theorem hints_change_nothing_sample :
    sampleTwo.Built ∧ Indifferent sampleTwo 1 [] ∧ Indifferent sampleTwo 0xffffffffffffffff [] :=
  ⟨sampleTwo_built, hints_change_nothing sampleTwo sampleTwo_built 1 [],
    hints_change_nothing sampleTwo sampleTwo_built _ []⟩

end DocTree.Object
