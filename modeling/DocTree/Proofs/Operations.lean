import Mathlib.Data.List.Basic
import DocTree.Object.Operation
import DocTree.Proofs.Lockstep
import DocTree.Proofs.Members

namespace DocTree

/-- What a caller promises of the object that an operation meets. Only the bulk operations on
sorted members take something on trust: the keys ascend, and none of them is there already. -/
def ObjectOp.Promise {O : Type} [MemberStore O] : ObjectOp O → O → Prop
  | renew (.ofSortedUnique ms), _ => AscendingBy Member.key ms
  | extendSortedUnique ms, o =>
    AscendingBy Member.key ms ∧ ∀ m ∈ ms, m.key ∉ (MemberStore.members o).map Member.key
  | _, _ => True

def mapMembers (f : String → Value → Value) (ms : List (Member Value)) : List (Member Value) :=
  ms.map fun m => ⟨m.key, f m.key m.value⟩

theorem map_key_mapMembers (f : String → Value → Value) (ms : List (Member Value)) :
    (mapMembers f ms).map Member.key = ms.map Member.key := by
  rw [mapMembers, List.map_map]
  rfl

theorem Value.shrinkItems_eq_map (vs : List Value) : shrinkItems vs = vs.map shrinkToFit := by
  induction vs with
  | nil => rfl
  | cons v vs ih => rw [shrinkItems, ih, List.map_cons]

theorem Value.shrinkMembers_eq_map (ms : List (Member Value)) :
    shrinkMembers ms = mapMembers (fun _ v => v.shrinkToFit) ms := by
  induction ms with
  | nil => rfl
  | cons m ms ih =>
    rw [shrinkMembers, ih]
    rfl

theorem Object.editValue?_update {o : Object Value} {i : Nat} {m : Member Value}
    (here : o.members[i]? = some m) (g : Value → Value) (l : Ledger) :
    editValue? i (Edit.update g) ⟨o, l⟩ = .ok (some ()) ⟨o.assignAt i (g m.value), l⟩ := by
  unfold editValue?
  rw [subject_bind]
  dsimp only
  rw [here]
  rfl

theorem Object.editAt_update {o : Object Value} {i : Nat} {m : Member Value}
    (here : o.members[i]? = some m) (g : Value → Value) (l : Ledger) :
    editAt i (Edit.update g) ⟨o, l⟩ = .ok () ⟨o.assignAt i (g m.value), l⟩ := by
  unfold editAt
  rw [subject_bind, bind_of_ok (editValue?_update here g l)]
  rfl

theorem Object.editAt_missing {β : Type} {o : Object Value} {i : Nat}
    (missing : o.members[i]? = none) (edit : Edit Value β) (l : Ledger) :
    editAt i edit ⟨o, l⟩ = .error (.error (.outOfRange i o.members.length)) ⟨o, l⟩ := by
  have nothing : editValue? i edit ⟨o, l⟩ = .ok none ⟨o, l⟩ := by
    unfold editValue?
    rw [subject_bind, missing]
    rfl
  unfold editAt
  rw [subject_bind, bind_of_ok nothing]
  rfl

theorem InsertionObject.editValue?_update {o : InsertionObject Value} {i : Nat}
    {m : Member Value} (here : o.members[i]? = some m) (g : Value → Value) (l : Ledger) :
    editValue? i (Edit.update g) ⟨o, l⟩ = .ok (some ()) ⟨o.assignAt i (g m.value), l⟩ := by
  unfold editValue?
  rw [subject_bind]
  dsimp only
  rw [here]
  rfl

theorem InsertionObject.editAt_update {o : InsertionObject Value} {i : Nat} {m : Member Value}
    (here : o.members[i]? = some m) (g : Value → Value) (l : Ledger) :
    editAt i (Edit.update g) ⟨o, l⟩ = .ok () ⟨o.assignAt i (g m.value), l⟩ := by
  unfold editAt
  rw [subject_bind, bind_of_ok (editValue?_update here g l)]
  rfl

theorem InsertionObject.editAt_missing {β : Type} {o : InsertionObject Value} {i : Nat}
    (missing : o.members[i]? = none) (edit : Edit Value β) (l : Ledger) :
    editAt i edit ⟨o, l⟩ = .error (.error (.outOfRange i o.members.length)) ⟨o, l⟩ := by
  have nothing : editValue? i edit ⟨o, l⟩ = .ok none ⟨o, l⟩ := by
    unfold editValue?
    rw [subject_bind, missing]
    rfl
  unfold editAt
  rw [subject_bind, bind_of_ok nothing]
  rfl

theorem writeEach {σ : Type} (put : List (Member Value) → σ)
    (write : Nat → (Value → Value) → Edit σ Unit)
    (written : ∀ ms i m g l, ms[i]? = some m →
      write i g ⟨put ms, l⟩ = .ok () ⟨put (ms.set i ⟨m.key, g m.value⟩), l⟩)
    (f : String → Value → Value) (front rest : List (Member Value)) (l : Ledger) :
    ((rest.zipIdx front.length).forM fun (m, i) => write i (f m.key) : Edit σ PUnit)
      ⟨put (front ++ rest), l⟩ = .ok () ⟨put (front ++ mapMembers f rest), l⟩ := by
  induction rest generalizing front with
  | nil => rfl
  | cons m rest ih =>
    have here : (front ++ m :: rest)[front.length]? = some m := by
      rw [List.getElem?_append_right (Nat.le_refl _), Nat.sub_self]
      rfl
    apply (bind_of_ok (written _ _ m _ l here)).trans
    have later := ih (front ++ [⟨m.key, f m.key m.value⟩])
    rw [List.length_append, List.append_assoc, List.append_assoc] at later
    rw [List.set_append_right _ _ (Nat.le_refl _), Nat.sub_self]
    exact later

theorem Object.assignAll_eq (o : Object Value) (f : String → Value → Value) (l : Ledger) :
    ObjectOp.assignAll f ⟨o, l⟩ = .ok () ⟨{ o with members := mapMembers f o.members }, l⟩ := by
  refine writeEach (fun ms => { o with members := ms })
    (fun i g => editAt i (Edit.update g)) ?_ f [] o.members l
  intro ms i m g l here
  rw [← modify_eq_set (key_at_of_member here)]
  exact editAt_update (o := { o with members := ms }) here g l

theorem InsertionObject.assignAll_eq (o : InsertionObject Value) (f : String → Value → Value)
    (l : Ledger) :
    ObjectOp.assignAll f ⟨o, l⟩ = .ok () ⟨{ o with members := mapMembers f o.members }, l⟩ := by
  refine writeEach (fun ms => { o with members := ms })
    (fun i g => editAt i (Edit.update g)) ?_ f [] o.members l
  intro ms i m g l here
  rw [← modify_eq_set (key_at_of_member here)]
  exact editAt_update (o := { o with members := ms }) here g l

end DocTree
