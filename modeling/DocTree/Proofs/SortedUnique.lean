import DocTree.Proofs.BulkInsertion
import DocTree.Proofs.Endings
import DocTree.Proofs.Hints

namespace DocTree

section Container

variable {O : Type} [MemberStore O]

/-- The short way to add members against the general one. Both end the same, down to what an arena
refuses, and every member is there once. -/
structure AddsAlike (same : O → O → Prop) (o : O) (ms : List (Member Value)) (l : Ledger) :
    Prop where
  alike : Alike same Eq (MemberStore.extendSortedUnique ms ⟨o, l⟩) (MemberStore.extend ms ⟨o, l⟩)
  members : Ends (MemberStore.home o ≠ .heap)
    (fun p => (MemberStore.members p).Perm
      (MemberStore.members o ++ housedAll (MemberStore.home o) ms))
    (MemberStore.extendSortedUnique ms ⟨o, l⟩)

def BuildsAlike (same : O → O → Prop) (ms : List (Member Value)) : Prop :=
  ∀ l, ∃ o p : O, (ObjectOrigin.ofSortedUnique ms).build l = .ok o l ∧
    (ObjectOrigin.ofMembers .heap ms).build l = .ok p l ∧ same o p ∧ MemberStore.members o = ms

end Container

namespace Object

variable {o : Object Value} {ms : List (Member Value)}

theorem Ordered.extendSortedUnique_ends (ordered : o.Ordered)
    (ascending : AscendingBy Member.key ms)
    (fresh : ∀ m ∈ ms, m.key ∉ o.members.map Member.key) (l : Ledger) :
    Ends (o.home ≠ .heap) (fun p => p.members.Perm (o.members ++ housedAll o.home ms))
      (extendSortedUnique ms ⟨o, l⟩) := by
  have keys := map_key_housedAll o.home ms
  have unknown : ∀ m ∈ housedAll o.home ms, m.key ∉ o.members.map Member.key := by
    intro m isIn
    obtain ⟨n, coming, rfl⟩ := List.mem_map.mp isIn
    exact fresh n coming
  rw [extendSortedUnique, settle, bind_assoc, subject_bind]
  apply Ends.charge (adoptMembersIn_gives o.home ms)
  intro l'
  exact .ok (ordered.insertSortedUnique (ascending.congr keys) unknown).2

theorem Ordered.addsAlike (ordered : o.Ordered) (ascending : AscendingBy Member.key ms)
    (fresh : ∀ m ∈ ms, m.key ∉ o.members.map Member.key) (l : Ledger) :
    AddsAlike SameMembers o ms l where
  alike := by
    have short := extendSortedUnique_alike ordered.lists ascending fresh l
    have general := extend_lockstep ms o _ l ordered.lists
    exact short.trans general.flip fun _ _ _ => Lists.settled
  members := ordered.extendSortedUnique_ends ascending fresh l

theorem buildsAlike (ascending : AscendingBy Member.key ms) : BuildsAlike SameMembers ms := by
  intro l
  have same : (ofMembers .heap ms).members = ms :=
    (ofMembers_ascending .heap ms).ext_lookup ascending (lookup_ofMembers .heap ms)
  exact ⟨ofSortedUnique ms, ofMembers .heap ms, rfl, rfl, ⟨rfl, same.symm⟩, rfl⟩

end Object

namespace InsertionObject

variable {o : InsertionObject Value} {ms : List (Member Value)}

theorem extendSortedUnique_alike_extend (distinct : Distinct o.members) (coming : Distinct ms)
    (fresh : ∀ m ∈ ms, m.key ∉ o.members.map Member.key) (l : Ledger) :
    Alike Eq Eq (PlainList.extendSortedUnique ms ⟨o.plain, l⟩)
      (PlainList.extend ms ⟨o.plain, l⟩) := by
  have whole := distinct.append coming fresh
  rw [Distinct, List.map_append] at whole
  refine Alike.charge rfl fun incoming _ adopted => .ok rfl ?_
  have keys : incoming.map Member.key = ms.map Member.key := map_key_adoptMembersIn adopted
  -- All keys are new, so the general way passes nothing over.
  have nodup : ((o.members ++ incoming).map Member.key).Nodup := by
    rwa [List.map_append, keys]
  exact congrArg (PlainList.mk o.home) (addAllNew_distinct Member.key o.members incoming nodup).symm

theorem Indexed.addsAlike (sound : o.Indexed) (ascending : AscendingBy Member.key ms)
    (fresh : ∀ m ∈ ms, m.key ∉ o.members.map Member.key) (l : Ledger) :
    AddsAlike SameIndexed o ms l where
  alike := by
    have short := extendSortedUnique_alike sound ascending fresh l
    have plain := extendSortedUnique_alike_extend sound.distinct ascending.distinct fresh l
    have general := extend_lockstep ms o _ l ⟨sound, rfl⟩
    have joined : Alike Views Eq (extendSortedUnique ms ⟨o, l⟩)
        (PlainList.extend ms ⟨o.plain, l⟩) :=
      short.trans plain fun _ _ _ views same => same ▸ views
    exact joined.trans general.flip fun _ _ _ => Views.settled
  members := by
    change Ends (o.home ≠ .heap) _ (extendSortedUnique ms ⟨o, l⟩)
    rw [extendSortedUnique, settle, bind_assoc, subject_bind]
    apply Ends.charge (adoptMembersIn_gives o.home ms)
    intro l'
    exact .ok (.refl _)

theorem buildsAlike (ascending : AscendingBy Member.key ms) : BuildsAlike SameIndexed ms := by
  intro l
  have first : Views (ofSortedUnique ms) ⟨.heap, ms⟩ :=
    ⟨indexed_rebuild _ ascending.distinct, rfl⟩
  have second := views_ofMembers .heap ms
  rw [addAllNew_distinct Member.key [] ms ascending.nodup] at second
  exact ⟨ofSortedUnique ms, ofMembers .heap ms, rfl, rfl, first.settled second, rfl⟩

end InsertionObject

/-- The short way is the general one: the same members in the same places, and the same index. -/
theorem sorted_unique_agrees :
    (∀ o : Object Value, o.Built → ∀ ms, AscendingBy Member.key ms →
      (∀ m ∈ ms, m.key ∉ o.members.map Member.key) → ∀ l, AddsAlike Object.SameMembers o ms l) ∧
    (∀ o : InsertionObject Value, o.Built → ∀ ms, AscendingBy Member.key ms →
      (∀ m ∈ ms, m.key ∉ o.members.map Member.key) → ∀ l,
        AddsAlike InsertionObject.SameIndexed o ms l) ∧
    (∀ ms, AscendingBy Member.key ms → BuildsAlike Object.SameMembers ms) ∧
    ∀ ms, AscendingBy Member.key ms → BuildsAlike InsertionObject.SameIndexed ms := by
  refine ⟨fun o built ms ascending fresh l => ?_, fun o built ms ascending fresh l => ?_,
    fun ms ascending => ?_, fun ms ascending => ?_⟩
  · exact built.ordered.addsAlike ascending fresh l
  · exact built.indexed.addsAlike ascending fresh l
  · exact Object.buildsAlike ascending
  · exact InsertionObject.buildsAlike ascending

def sampleAround : List (Member Value) := [⟨"a", .null⟩, ⟨"bb", .emptyObject⟩, ⟨"e", .null⟩]

theorem sorted_unique_agrees_sample :
    (Object.sampleTwo.Built ∧ AddsAlike Object.SameMembers Object.sampleTwo sampleAround []) ∧
      (sampleLetters.Built ∧
        AddsAlike InsertionObject.SameIndexed sampleLetters sampleAround []) ∧
      BuildsAlike Object.SameMembers sampleAround ∧
      BuildsAlike InsertionObject.SameIndexed sampleAround := by
  have ascending : AscendingBy Member.key sampleAround := by
    unfold AscendingBy
    decide
  have sorted : Object.sampleTwo.members = [⟨"b", .null⟩, ⟨"d", .null⟩] := rfl
  have inserted : sampleLetters.members = [⟨"c", .ofBool false⟩] := rfl
  have fresh : ∀ m ∈ sampleAround, m.key ∉ Object.sampleTwo.members.map Member.key := by
    rw [sorted]
    decide
  have unknown : ∀ m ∈ sampleAround, m.key ∉ sampleLetters.members.map Member.key := by
    rw [inserted]
    decide
  obtain ⟨short, inOrder, built, builtInOrder⟩ := sorted_unique_agrees
  exact ⟨⟨Object.sampleTwo_built, short _ Object.sampleTwo_built _ ascending fresh []⟩,
    ⟨sampleLetters_built, inOrder _ sampleLetters_built _ ascending unknown []⟩,
    built _ ascending, builtInOrder _ ascending⟩

end DocTree
