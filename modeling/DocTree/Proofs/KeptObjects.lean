import DocTree.Proofs.Backends
import DocTree.Proofs.KeptSequences

namespace DocTree

def AllValues (P : Value → Prop) (ms : List (Member Value)) : Prop := ∀ m ∈ ms, P m.value

namespace AllValues

variable {P : Value → Prop} {ms others : List (Member Value)}

theorem append (first : AllValues P ms) (second : AllValues P others) :
    AllValues P (ms ++ others) := List.forall_mem_append.mpr ⟨first, second⟩

theorem insertIdx (all : AllValues P ms) (pos : Nat) {m : Member Value} (holds : P m.value) :
    AllValues P (ms.insertIdx pos m) := by
  intro n isIn
  rcases List.eq_or_mem_of_mem_insertIdx isIn with rfl | known
  · exact holds
  · exact all n known

theorem modify (all : AllValues P ms) (pos : Nat) {v : Value} (holds : P v) :
    AllValues P (ms.modify pos fun m => { m with value := v }) := by
  intro n isIn
  rw [List.modify_eq_set_getElem?] at isIn
  cases here : ms[pos]? with
  | none =>
    rw [here] at isIn
    exact all n isIn
  | some m =>
    rw [here] at isIn
    rcases List.mem_or_eq_of_mem_set isIn with known | rfl
    · exact all n known
    · exact holds

theorem eraseSpan (all : AllValues P ms) (start stop : Nat) :
    AllValues P (eraseSpan ms start stop) := fun m isIn =>
  (List.mem_append.mp isIn).elim (fun front => all m (List.mem_of_mem_take front))
    (fun back => all m (List.mem_of_mem_drop back))

theorem firsts (all : AllValues P ms) : AllValues P (addAllNew Member.key [] ms) :=
  fun m isIn => all m ((addAllNew_sublist Member.key [] ms).subset isIn)

theorem runHeads (all : AllValues P ms) :
    AllValues P (runHeads Member.key none (sortByKey ms)) :=
  fun m isIn => all.firsts m ((runHeads_perm_firsts Member.key ms).mem_iff.mp isIn)

theorem mapMembers {f : String → Value → Value} (all : ∀ m ∈ ms, P (f m.key m.value)) :
    AllValues P (mapMembers f ms) := List.forall_mem_map.mpr all

end AllValues

theorem Lasting.adopted {P : Home → Value → Prop} (lasting : Lasting P) {home : Home}
    {ms ns : List (Member Value)} {l l' : Ledger} (adopted : adoptMembersIn home ms l = .ok ns l')
    (all : AllValues (P .heap) ms) : AllValues (P home) ns := by
  rw [adoptMembersIn_ok adopted]
  exact List.forall_mem_map.mpr fun m isIn => lasting.housed (all m isIn)

theorem Lasting.adoptMembersIn {σ : Type} {I : σ → Prop} {P : Home → Value → Prop}
    (lasting : Lasting P) (onRefusal : Refusal → Failure) {home here : Home} (same : here = home)
    {ms : List (Member Value)} (all : AllValues (P .heap) ms) :
    Keeps I (AllValues (P home)) (Edit.charge onRefusal (adoptMembersIn here ms)) := by
  subst same
  exact .charge onRefusal (.adoptMembersIn here ms) fun _ _ _ adopted =>
    lasting.adopted adopted all

def Carries {O : Type} [MemberStore O] (P : Home → Value → Prop) (home : Home) (o : O) : Prop :=
  MemberStore.home o = home ∧ AllValues (P home) (MemberStore.members o)

def ObjectOrigin.values : ObjectOrigin → List Value
  | ofMembers _ ms | ofSortedUnique ms => ms.map Member.value
  | _ => []

/-- Objects of one kind stay in their home, bring in nothing but what they are given and take in,
and hand out nothing but what they have. -/
structure Passing (O : Type) [MemberStore O] (P : Home → Value → Prop) : Prop where
  forward : ∀ origin : ObjectOrigin, Forward (origin.build (O := O))
  build : ∀ {origin : ObjectOrigin}, (∀ v ∈ origin.values, P .heap v) → ∀ {l} {o : O} {l'},
    origin.build l = .ok o l' → Carries P (MemberStore.home o) o
  insertOrAssign : ∀ {home} key {v}, P .heap v →
    Keeps (Carries P home) (fun _ => True) (MemberStore.insertOrAssign (O := O) key v)
  tryInsertOrAssign : ∀ {home} key {v}, P .heap v →
    Keeps (Carries P home) (fun _ => True) (MemberStore.tryInsertOrAssign (O := O) key v)
  tryEmplace : ∀ {home} key {v}, P .heap v →
    Keeps (Carries P home) (fun _ => True) (MemberStore.tryEmplace (O := O) key v)
  insertOrAssignHint : ∀ {home} hint key {v}, P .heap v →
    Keeps (Carries P home) (fun _ => True) (MemberStore.insertOrAssignHint (O := O) hint key v)
  tryEmplaceHint : ∀ {home} hint key {v}, P .heap v →
    Keeps (Carries P home) (fun _ => True) (MemberStore.tryEmplaceHint (O := O) hint key v)
  erase : ∀ {home} key,
    Keeps (Carries P home) (IfSome (P home)) (MemberStore.erase (O := O) key)
  eraseAt : ∀ {home} pos,
    Keeps (Carries P home) (fun m => P home m.value) (MemberStore.eraseAt (O := O) pos)
  eraseRange : ∀ {home} low high,
    Keeps (Carries P home) (fun _ => True) (MemberStore.eraseRange (O := O) low high)
  merge : ∀ {home} {source : O}, AllValues (P .heap) (MemberStore.members source) →
    Keeps (Carries P home) (fun _ => True) (MemberStore.merge source)
  mergeOrUpdate : ∀ {home} {source : O}, AllValues (P .heap) (MemberStore.members source) →
    Keeps (Carries P home) (fun _ => True) (MemberStore.mergeOrUpdate source)
  mergeHint : ∀ {home} hint {source : O}, AllValues (P .heap) (MemberStore.members source) →
    Keeps (Carries P home) (fun _ => True) (MemberStore.mergeHint hint source)
  mergeOrUpdateHint : ∀ {home} hint {source : O},
    AllValues (P .heap) (MemberStore.members source) →
    Keeps (Carries P home) (fun _ => True) (MemberStore.mergeOrUpdateHint hint source)
  extend : ∀ {home} {ms}, AllValues (P .heap) ms →
    Keeps (Carries P home) (fun _ => True) (MemberStore.extend (O := O) ms)
  extendSortedUnique : ∀ {home} {ms}, AllValues (P .heap) ms →
    Keeps (Carries P home) (fun _ => True) (MemberStore.extendSortedUnique (O := O) ms)
  editAt : ∀ {home} {β : Type} {J : β → Prop} pos {e : Edit Value β}, Keeps (P home) J e →
    Keeps (Carries P home) J (MemberStore.editAt (O := O) pos e)
  editKey? : ∀ {home} {β : Type} {J : β → Prop} key {e : Edit Value β}, Keeps (P home) J e →
    Keeps (Carries P home) (IfSome J) (MemberStore.editKey? (O := O) key e)
  assignAll : ∀ {home} {f} {o : O}, MemberStore.home o = home →
    (∀ m ∈ MemberStore.members o, P home (f m.key m.value)) → ∀ l,
    Kept (Carries P home) (fun _ => True) l (ObjectOp.assignAll f ⟨o, l⟩)
  clear : ∀ {home}, Keeps (Carries P home) (fun _ => True) (MemberStore.clear (O := O))
  reserve : ∀ {home} additional,
    Keeps (Carries P home) (fun _ => True) (MemberStore.reserve (O := O) additional)
  shrinkToFit : ∀ {home},
    Keeps (Carries P home) (fun _ => True) (Edit.update (MemberStore.shrinkToFit (O := O)))

variable {P : Home → Value → Prop} {home : Home}

theorem AllValues.shrunk (lasting : Lasting P) {ms : List (Member Value)}
    (all : AllValues (P home) ms) : AllValues (P home) (Value.shrinkMembers ms) := by
  rw [Value.shrinkMembers_eq_map]
  exact .mapMembers fun m isIn => lasting.shrunk (all m isIn)

theorem Carries.own {O : Type} [MemberStore O] {o : O} (carries : Carries P home o) :
    Carries P (MemberStore.home o) o := carries.1.symm ▸ carries

section Merging

variable {O : Type} [MemberStore O] {source : O}

theorem mergeEach {β : Type} {insert : String → Value → Edit O β}
    (each : ∀ key {v}, P .heap v → Keeps (Carries P home) (fun _ => True) (insert key v))
    (given : AllValues (P .heap) (MemberStore.members source)) :
    Keeps (Carries P home) (fun _ => True)
      ((MemberStore.members source).forM fun m => discard (insert m.key m.value)) :=
  .forM fun m isIn => (each m.key (given m isIn)).discard

theorem mergeFrom {insert : Nat → String → Value → Edit O Nat}
    (each : ∀ pos key {v}, P .heap v → Keeps (Carries P home) (fun _ => True) (insert pos key v))
    (start : Nat) (given : AllValues (P .heap) (MemberStore.members source)) :
    Keeps (Carries P home) (fun _ => True)
      (discard ((MemberStore.members source).foldlM
        (fun pos m => insert pos m.key m.value) start)) :=
  (Keeps.foldlM (fun pos m isIn => each pos m.key (given m isIn)) start).discard

end Merging

namespace Object

theorem place_carries (lasting : Lasting P) (pos : Nat) (key : String) {v : Value}
    (holds : P .heap v) (overwrite : Bool) :
    Keeps (Carries P home) (fun _ => True) (place pos key v overwrite) := by
  refine .bind .subject fun o here => ?_
  split
  · split
    · exact .bind (lasting.adoptIn _ here.1 holds) fun _ new =>
        .bind (.update fun _ old => ⟨old.1, old.2.modify pos new⟩) fun _ _ => .pure trivial
    · exact .pure trivial
  · exact .bind (lasting.adoptIn _ here.1 holds) fun _ new =>
      .bind (.update fun _ old => ⟨old.1, old.2.insertIdx pos new⟩) fun _ _ => .pure trivial

theorem insertSortedUnique_carries {o : Object Value} (old : Carries P home o)
    {ms : List (Member Value)} (new : AllValues (P home) ms) :
    Carries P home (o.insertSortedUnique ms) := by
  unfold insertSortedUnique
  dsimp only
  -- Whether the new members come behind the others or among them, they are all that is added.
  split
  · split
    · exact ⟨old.1, old.2.append new⟩
    · exact ⟨old.1, fun m isIn => (List.mem_merge.mp isIn).elim (old.2 m) (new m)⟩
  · exact ⟨old.1, old.2.append new⟩

theorem insertOrAssign_carries (lasting : Lasting P) (key : String) {v : Value}
    (holds : P .heap v) : Keeps (Carries P home) (fun _ => True) (insertOrAssign key v) :=
  .bind .subject fun _ _ => place_carries lasting _ key holds true

theorem tryEmplace_carries (lasting : Lasting P) (key : String) {v : Value} (holds : P .heap v) :
    Keeps (Carries P home) (fun _ => True) (tryEmplace key v) :=
  .bind .subject fun _ _ => place_carries lasting _ key holds false

theorem insertOrAssignHint_carries (lasting : Lasting P) (hint : Nat) (key : String) {v : Value}
    (holds : P .heap v) :
    Keeps (Carries P home) (fun _ => True) (insertOrAssignHint hint key v) :=
  .bind .subject fun _ _ => .bind (place_carries lasting _ key holds true) fun _ _ => .pure trivial

theorem tryEmplaceHint_carries (lasting : Lasting P) (hint : Nat) (key : String) {v : Value}
    (holds : P .heap v) : Keeps (Carries P home) (fun _ => True) (tryEmplaceHint hint key v) :=
  .bind .subject fun _ _ => .bind (place_carries lasting _ key holds false) fun _ _ => .pure trivial

theorem tryInsertOrAssign_carries (lasting : Lasting P) (key : String) {v : Value}
    (holds : P .heap v) : Keeps (Carries P home) (fun _ => True) (tryInsertOrAssign key v) :=
  -- The value is taken in twice, first on its own and then as a member.
  .bind .subject fun _ here => .bind (lasting.adoptIn _ here.1 holds) fun _ new =>
    insertOrAssign_carries lasting key (lasting.freed new)

theorem eraseAt_carries (pos : Nat) :
    Keeps (Carries P home) (fun m => P home m.value) (eraseAt pos) := by
  refine .bind .subject fun o old => ?_
  split
  · rename_i m here
    have rest : AllValues (P home) (o.members.eraseIdx pos) :=
      fun n isIn => old.2 n (List.mem_of_mem_eraseIdx isIn)
    exact .bind (.put ⟨old.1, rest⟩) fun _ _ => .pure (old.2 m (List.mem_of_getElem? here))
  · exact .fault _

theorem erase_carries (key : String) :
    Keeps (Carries P home) (IfSome (P home)) (erase key) := by
  refine .bind .subject fun o _ => ?_
  split
  · exact .bind (eraseAt_carries _) fun _ holds => .pure (.some holds)
  · exact .pure .none

theorem eraseRange_carries (low high : Bound) :
    Keeps (Carries P home) (fun _ => True) (eraseRange low high) :=
  .bind .subject fun _ old => .bind (.ofExcept fun _ _ => trivial) fun (_, _) _ =>
    .put ⟨old.1, old.2.eraseSpan _ _⟩

theorem extend_carries (lasting : Lasting P) {ms : List (Member Value)}
    (all : AllValues (P .heap) ms) : Keeps (Carries P home) (fun _ => True) (extend ms) := by
  refine .bind (.bind .subject fun _ here => lasting.adoptMembersIn _ here.1 all)
    fun incoming new => .update fun o old => ?_
  unfold insertRange
  split
  · exact old
  · exact ⟨old.1, (old.2.append new).runHeads⟩

theorem extendSortedUnique_carries (lasting : Lasting P) {ms : List (Member Value)}
    (all : AllValues (P .heap) ms) :
    Keeps (Carries P home) (fun _ => True) (extendSortedUnique ms) :=
  .bind (.bind .subject fun _ here => lasting.adoptMembersIn _ here.1 all)
    fun _ new => .update fun _ old => insertSortedUnique_carries old new

theorem editValue?_carries {β : Type} {J : β → Prop} (pos : Nat) {e : Edit Value β}
    (inner : Keeps (P home) J e) : Keeps (Carries P home) (IfSome J) (editValue? pos e) := by
  refine .bind .subject fun o old => .zoom? inner (fun v here => ?_) fun v new =>
    ⟨old.1, old.2.modify pos new⟩
  obtain ⟨m, there, rfl⟩ := Option.map_eq_some_iff.mp here
  exact old.2 m (List.mem_of_getElem? there)

theorem editAt_keeps {I : Object Value → Prop} {β : Type} {J : β → Prop} {pos : Nat}
    {e : Edit Value β} (entered : Keeps I (IfSome J) (editValue? pos e)) :
    Keeps I J (editAt pos e) := by
  refine .bind .subject fun o _ => .bind entered fun answer holds => ?_
  split
  · rename_i x
    exact .pure (holds x rfl)
  · exact .fail _

theorem editKey?_keeps {I : Object Value → Prop} {β : Type} {J : β → Prop} (key : String)
    {e : Edit Value β} (entered : ∀ pos, Keeps I (IfSome J) (editValue? pos e)) :
    Keeps I (IfSome J) (editKey? key e) := by
  refine .bind .subject fun o _ => ?_
  split
  · exact entered _
  · exact .pure .none

theorem reserve_carries (additional : Nat) :
    Keeps (Carries P home) (fun _ => True) (reserve additional) :=
  .bind .subject fun _ old => .bind (.checkRoom _) fun _ _ => .put old

theorem clear_carries : Keeps (Carries P home) (fun _ => True) clear :=
  .update fun _ old => ⟨old.1, nofun⟩

theorem shrinkToFit_carries (lasting : Lasting P) :
    Keeps (Carries P home) (fun _ => True) (Edit.update shrinkToFit) :=
  .update fun _ old => ⟨old.1, old.2.shrunk lasting⟩

theorem build_forward (origin : ObjectOrigin) : Forward (origin.build (O := Object Value)) := by
  cases origin with
  | empty home => exact .pure _
  | withCapacity home capacity => exact .bind (.haveRoom capacity) fun _ => .pure _
  | ofMembers home ms => exact .bind (.adoptMembersIn home ms) fun _ => .pure _
  | ofSortedUnique ms => exact .pure _

theorem build_carries (lasting : Lasting P) {origin : ObjectOrigin}
    (given : ∀ v ∈ origin.values, P .heap v) {l : Ledger} {o : Object Value} {l' : Ledger}
    (built : origin.build l = .ok o l') : Carries P o.home o := by
  cases origin with
  | empty home =>
    cases built
    exact ⟨rfl, nofun⟩
  | withCapacity home capacity =>
    obtain ⟨_, _, -, made⟩ := bind_eq_ok built
    cases made
    exact ⟨rfl, nofun⟩
  | ofMembers home ms =>
    obtain ⟨_, _, adopted, made⟩ := bind_eq_ok built
    cases made
    exact ⟨rfl, (lasting.adopted adopted (List.forall_mem_map.mp given)).runHeads⟩
  | ofSortedUnique ms =>
    cases built
    have made : Carries P .heap (insertSortedUnique {} ms) :=
      insertSortedUnique_carries ⟨rfl, nofun⟩ (List.forall_mem_map.mp given)
    exact made.own

theorem passing (lasting : Lasting P) : Passing (Object Value) P where
  forward := build_forward
  build := build_carries lasting
  insertOrAssign := insertOrAssign_carries lasting
  tryInsertOrAssign := tryInsertOrAssign_carries lasting
  tryEmplace := tryEmplace_carries lasting
  insertOrAssignHint := insertOrAssignHint_carries lasting
  tryEmplaceHint := tryEmplaceHint_carries lasting
  erase := erase_carries
  eraseAt := eraseAt_carries
  eraseRange := eraseRange_carries
  merge := mergeEach (tryEmplace_carries lasting)
  mergeOrUpdate := mergeEach (insertOrAssign_carries lasting)
  mergeHint hint _ := mergeFrom (tryEmplaceHint_carries lasting) hint
  mergeOrUpdateHint hint _ := mergeFrom (insertOrAssignHint_carries lasting) hint
  extend := extend_carries lasting
  extendSortedUnique := extendSortedUnique_carries lasting
  editAt pos _ inner := editAt_keeps (editValue?_carries pos inner)
  editKey? key _ inner := editKey?_keeps key fun pos => editValue?_carries pos inner
  assignAll here all l := by
    rw [assignAll_eq]
    exact .ok trivial ⟨here, AllValues.mapMembers all⟩ (.refl l)
  clear := clear_carries
  reserve := reserve_carries
  shrinkToFit := shrinkToFit_carries lasting

end Object

namespace InsertionObject

theorem place_carries (lasting : Lasting P) (pos : Nat) (key : String) {v : Value}
    (holds : P .heap v) (overwrite : Bool) :
    Keeps (Carries P home) (fun _ => True) (place pos key v overwrite) := by
  refine .bind .subject fun o here => ?_
  split
  · rename_i found _
    split
    · exact .bind (lasting.adoptIn _ here.1 holds) fun _ new =>
        .bind (.update fun _ old => ⟨old.1, old.2.modify found new⟩) fun _ _ => .pure trivial
    · exact .pure trivial
  · exact .bind (lasting.adoptIn _ here.1 holds) fun _ new =>
      .bind (.update fun _ old => ⟨old.1, old.2.insertIdx pos new⟩) fun _ _ => .pure trivial

theorem dedup_carries {o : InsertionObject Value} (here : o.home = home)
    {ms : List (Member Value)} (all : AllValues (P home) ms) : Carries P home (o.dedup ms) := by
  refine ⟨(dedup_home o ms).trans here, ?_⟩
  change AllValues (P home) (o.dedup ms).members
  rw [dedup_members]
  exact all.firsts

theorem insertOrAssign_carries (lasting : Lasting P) (key : String) {v : Value}
    (holds : P .heap v) : Keeps (Carries P home) (fun _ => True) (insertOrAssign key v) :=
  .bind .subject fun _ _ => place_carries lasting _ key holds true

theorem tryEmplace_carries (lasting : Lasting P) (key : String) {v : Value} (holds : P .heap v) :
    Keeps (Carries P home) (fun _ => True) (tryEmplace key v) :=
  .bind .subject fun _ _ => place_carries lasting _ key holds false

theorem insertOrAssignHint_carries (lasting : Lasting P) (hint : Nat) (key : String) {v : Value}
    (holds : P .heap v) :
    Keeps (Carries P home) (fun _ => True) (insertOrAssignHint hint key v) :=
  .bind .subject fun _ _ => .bind (place_carries lasting _ key holds true) fun _ _ => .pure trivial

theorem tryEmplaceHint_carries (lasting : Lasting P) (hint : Nat) (key : String) {v : Value}
    (holds : P .heap v) : Keeps (Carries P home) (fun _ => True) (tryEmplaceHint hint key v) :=
  .bind .subject fun _ _ => .bind (place_carries lasting _ key holds false) fun _ _ => .pure trivial

theorem tryInsertOrAssign_carries (lasting : Lasting P) (key : String) {v : Value}
    (holds : P .heap v) : Keeps (Carries P home) (fun _ => True) (tryInsertOrAssign key v) :=
  .bind .subject fun _ here => .bind (lasting.adoptIn _ here.1 holds) fun _ new =>
    insertOrAssign_carries lasting key (lasting.freed new)

theorem mergeHint_carries (lasting : Lasting P) (hint : Nat) {source : InsertionObject Value}
    (given : AllValues (P .heap) source.members) :
    Keeps (Carries P home) (fun _ => True) (mergeHint hint source) :=
  .bind .subject fun _ _ => mergeFrom (fun pos key _ holds =>
    .map (tryEmplaceHint_carries lasting pos key holds) fun _ _ => trivial) _ given

theorem mergeOrUpdateHint_carries (lasting : Lasting P) (hint : Nat)
    {source : InsertionObject Value} (given : AllValues (P .heap) source.members) :
    Keeps (Carries P home) (fun _ => True) (mergeOrUpdateHint hint source) :=
  .bind .subject fun _ _ => mergeFrom (fun pos key _ holds =>
    .map (insertOrAssignHint_carries lasting pos key holds) fun _ _ => trivial) _ given

theorem eraseAt_carries (pos : Nat) :
    Keeps (Carries P home) (fun m => P home m.value) (eraseAt pos) := by
  refine .bind .subject fun o old => ?_
  split
  · rename_i m here
    exact .bind (.put ⟨old.1, old.2.eraseSpan pos (pos + 1)⟩) fun _ _ =>
      .pure (old.2 m (List.mem_of_getElem? here))
  · exact .fault _

theorem erase_carries (key : String) :
    Keeps (Carries P home) (IfSome (P home)) (erase key) := by
  refine .bind .subject fun o _ => ?_
  split
  · exact .bind (eraseAt_carries _) fun _ holds => .pure (.some holds)
  · exact .pure .none

theorem eraseRange_carries (low high : Bound) :
    Keeps (Carries P home) (fun _ => True) (eraseRange low high) :=
  .bind .subject fun _ old => .bind (.ofExcept fun _ _ => trivial) fun (_, _) _ =>
    .put ⟨old.1, old.2.eraseSpan _ _⟩

theorem extend_carries (lasting : Lasting P) {ms : List (Member Value)}
    (all : AllValues (P .heap) ms) : Keeps (Carries P home) (fun _ => True) (extend ms) := by
  refine .bind (.bind .subject fun _ here => lasting.adoptMembersIn _ here.1 all)
    fun incoming new => .update fun o old => ?_
  unfold insertRange
  split
  · exact old
  · exact dedup_carries old.1 (old.2.append new)

theorem extendSortedUnique_carries (lasting : Lasting P) {ms : List (Member Value)}
    (all : AllValues (P .heap) ms) :
    Keeps (Carries P home) (fun _ => True) (extendSortedUnique ms) :=
  .bind (.bind .subject fun _ here => lasting.adoptMembersIn _ here.1 all)
    fun _ new => .update fun _ old => ⟨old.1, old.2.append new⟩

theorem editValue?_carries {β : Type} {J : β → Prop} (pos : Nat) {e : Edit Value β}
    (inner : Keeps (P home) J e) : Keeps (Carries P home) (IfSome J) (editValue? pos e) := by
  refine .bind .subject fun o old => .zoom? inner (fun v here => ?_) fun v new =>
    ⟨old.1, old.2.modify pos new⟩
  obtain ⟨m, there, rfl⟩ := Option.map_eq_some_iff.mp here
  exact old.2 m (List.mem_of_getElem? there)

theorem editAt_keeps {I : InsertionObject Value → Prop} {β : Type} {J : β → Prop} {pos : Nat}
    {e : Edit Value β} (entered : Keeps I (IfSome J) (editValue? pos e)) :
    Keeps I J (editAt pos e) := by
  refine .bind .subject fun o _ => .bind entered fun answer holds => ?_
  split
  · rename_i x
    exact .pure (holds x rfl)
  · exact .fail _

theorem editKey?_keeps {I : InsertionObject Value → Prop} {β : Type} {J : β → Prop} (key : String)
    {e : Edit Value β} (entered : ∀ pos, Keeps I (IfSome J) (editValue? pos e)) :
    Keeps I (IfSome J) (editKey? key e) := by
  refine .bind .subject fun o _ => ?_
  split
  · exact entered _
  · exact .pure .none

theorem reserve_carries (additional : Nat) :
    Keeps (Carries P home) (fun _ => True) (reserve additional) :=
  .bind .subject fun _ old => .bind (.checkRoom _) fun _ _ => .put old

theorem clear_carries : Keeps (Carries P home) (fun _ => True) clear :=
  .update fun _ old => ⟨old.1, nofun⟩

theorem shrinkToFit_carries (lasting : Lasting P) :
    Keeps (Carries P home) (fun _ => True) (Edit.update shrinkToFit) :=
  .update fun _ old => ⟨old.1, old.2.shrunk lasting⟩

theorem build_forward (origin : ObjectOrigin) :
    Forward (origin.build (O := InsertionObject Value)) := by
  cases origin with
  | empty home => exact .pure _
  | withCapacity home capacity => exact .bind (.haveRoom capacity) fun _ => .pure _
  | ofMembers home ms => exact .bind (.adoptMembersIn home ms) fun _ => .pure _
  | ofSortedUnique ms => exact .pure _

theorem build_carries (lasting : Lasting P) {origin : ObjectOrigin}
    (given : ∀ v ∈ origin.values, P .heap v) {l : Ledger} {o : InsertionObject Value} {l' : Ledger}
    (built : origin.build l = .ok o l') : Carries P o.home o := by
  cases origin with
  | empty home =>
    cases built
    exact ⟨rfl, nofun⟩
  | withCapacity home capacity =>
    obtain ⟨_, _, -, made⟩ := bind_eq_ok built
    cases made
    exact ⟨rfl, nofun⟩
  | ofMembers home ms =>
    obtain ⟨ns, _, adopted, made⟩ := bind_eq_ok built
    cases made
    have here : (ofMembers home ns).home = home := dedup_home { home } ns
    rw [here]
    exact dedup_carries rfl (lasting.adopted adopted (List.forall_mem_map.mp given))
  | ofSortedUnique ms =>
    cases built
    exact ⟨rfl, List.forall_mem_map.mp given⟩

theorem passing (lasting : Lasting P) : Passing (InsertionObject Value) P where
  forward := build_forward
  build := build_carries lasting
  insertOrAssign := insertOrAssign_carries lasting
  tryInsertOrAssign := tryInsertOrAssign_carries lasting
  tryEmplace := tryEmplace_carries lasting
  insertOrAssignHint := insertOrAssignHint_carries lasting
  tryEmplaceHint := tryEmplaceHint_carries lasting
  erase := erase_carries
  eraseAt := eraseAt_carries
  eraseRange := eraseRange_carries
  merge := mergeEach (tryEmplace_carries lasting)
  mergeOrUpdate := mergeEach (insertOrAssign_carries lasting)
  mergeHint := mergeHint_carries lasting
  mergeOrUpdateHint := mergeOrUpdateHint_carries lasting
  extend := extend_carries lasting
  extendSortedUnique := extendSortedUnique_carries lasting
  editAt pos _ inner := editAt_keeps (editValue?_carries pos inner)
  editKey? key _ inner := editKey?_keeps key fun pos => editValue?_carries pos inner
  assignAll here all l := by
    rw [assignAll_eq]
    exact .ok trivial ⟨here, AllValues.mapMembers all⟩ (.refl l)
  clear := clear_carries
  reserve := reserve_carries
  shrinkToFit := shrinkToFit_carries lasting

end InsertionObject

section Runs

variable {O : Type} [MemberStore O]

def ObjectOp.values : ObjectOp O → O → List Value
  | renew origin, _ => origin.values
  | insertOrAssign _ v, _ | tryInsertOrAssign _ v, _ | tryEmplace _ v, _ => [v]
  | insertOrAssignHint _ _ v, _ | tryEmplaceHint _ _ v, _ => [v]
  | assignAt _ v, _ | assignKey _ v, _ => [v]
  | merge source, _ | mergeOrUpdate source, _ => (MemberStore.members source).map Member.value
  | mergeHint _ source, _ | mergeOrUpdateHint _ source, _ =>
    (MemberStore.members source).map Member.value
  | extend ms, _ | extendSortedUnique ms, _ => ms.map Member.value
  | assignEach f, o => (MemberStore.members o).map fun m => f m.key m.value
  | _, _ => []

/-- Only an object that takes the place of another may have another home. -/
def ObjectOp.Stays : ObjectOp O → Prop
  | renew _ => False
  | _ => True

/-- Operations that bring values in by insertion only, if they bring in any. -/
def ObjectOp.Inserting : ObjectOp O → Prop
  | renew _ | assignAt .. | assignKey .. | assignEach _ => False
  | _ => True

theorem ObjectOp.Inserting.stays {O : Type} {op : ObjectOp O} (inserting : op.Inserting) :
    op.Stays := by
  cases op with
  | renew => exact inserting.elim
  | _ => trivial

theorem ObjectOp.run_stays (passing : Passing O P) (op : ObjectOp O) (stays : op.Stays) {o : O}
    (given : ∀ v ∈ op.values o, P .heap v) (placed : op.Inserting ∨ ∀ v, P .heap v → P home v)
    (old : Carries P home o) (l : Ledger) :
    Kept (Carries P home) (Answer.Holds (P home)) l (op.run ⟨o, l⟩) := by
  have one : ∀ {v : Value}, (∀ w ∈ [v], P .heap w) → P .heap v :=
    fun all => all _ List.mem_cons_self
  cases op with
  | renew origin => exact stays.elim
  | insertOrAssign key v =>
    exact (passing.insertOrAssign key (one given) o l old).bind fun _ _ => .pure trivial
  | tryInsertOrAssign key v =>
    exact (passing.tryInsertOrAssign key (one given) o l old).bind fun _ _ => .pure trivial
  | tryEmplace key v =>
    exact (passing.tryEmplace key (one given) o l old).bind fun _ _ => .pure trivial
  | insertOrAssignHint hint key v =>
    exact (passing.insertOrAssignHint hint key (one given) o l old).bind fun _ _ => .pure trivial
  | tryEmplaceHint hint key v =>
    exact (passing.tryEmplaceHint hint key (one given) o l old).bind fun _ _ => .pure trivial
  | erase key => exact (passing.erase key o l old).bind fun _ holds => .pure holds
  | eraseAt pos => exact (passing.eraseAt pos o l old).bind fun _ holds => .pure holds
  | eraseRange low high => exact (passing.eraseRange low high).done o l old
  | merge source => exact (passing.merge (List.forall_mem_map.mp given)).done o l old
  | mergeOrUpdate source =>
    exact (passing.mergeOrUpdate (List.forall_mem_map.mp given)).done o l old
  | mergeHint hint source =>
    exact (passing.mergeHint hint (List.forall_mem_map.mp given)).done o l old
  | mergeOrUpdateHint hint source =>
    exact (passing.mergeOrUpdateHint hint (List.forall_mem_map.mp given)).done o l old
  | extend ms => exact (passing.extend (List.forall_mem_map.mp given)).done o l old
  | extendSortedUnique ms =>
    exact (passing.extendSortedUnique (List.forall_mem_map.mp given)).done o l old
  | assignAt pos v =>
    have holds := placed.elim False.elim fun free => free v (one given)
    exact (passing.editAt pos (Keeps.put holds)).done o l old
  | assignKey key v =>
    have holds := placed.elim False.elim fun free => free v (one given)
    exact (passing.editKey? key (Keeps.put holds) o l old).bind fun _ _ => .pure trivial
  | assignEach f =>
    have holds := placed.elim False.elim fun free m isIn =>
      free _ (List.forall_mem_map.mp given m isIn)
    exact (passing.assignAll old.1 holds l).bind fun _ _ => .pure trivial
  | clear => exact passing.clear.done o l old
  | reserve additional => exact (passing.reserve additional).done o l old
  | shrinkToFit => exact passing.shrinkToFit.done o l old

theorem ObjectOp.run_carries (passing : Passing O P) (op : ObjectOp O) {o : O}
    (given : ∀ v ∈ op.values o, P .heap v) (placed : op.Inserting ∨ ∀ v, P .heap v → P home v)
    (old : Carries P home o) (l : Ledger) :
    Kept (fun o => Carries P (MemberStore.home o) o) (Answer.Holds (P home)) l
      (op.run ⟨o, l⟩) := by
  by_cases stays : op.Stays
  · exact (op.run_stays passing stays given placed old l).imp fun _ => .own
  · cases op with
    | renew origin =>
      exact Keeps.done (.bind (.charge _ (passing.forward origin) fun _ _ _ built =>
        passing.build given built) fun _ new => .put new) o l old.own
    | _ => exact absurd trivial stays

end Runs

end DocTree
