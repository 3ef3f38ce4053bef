import DocTree.Proofs.KeptObjects
import DocTree.Value.Operation
import DocTree.Value.Path

namespace DocTree

/-- What objects keep under everything that values do with their objects. -/
structure Editable (P : Home → Value → Prop) (Q : Home → Object Value → Prop) : Prop where
  insertOrAssign : ∀ {home} key {v}, P .heap v →
    Keeps (Q home) (fun _ => True) (Object.insertOrAssign key v)
  tryEmplace : ∀ {home} key {v}, P .heap v →
    Keeps (Q home) (fun _ => True) (Object.tryEmplace key v)
  erase : ∀ {home} key, Keeps (Q home) (IfSome (P home)) (Object.erase key)
  merge : ∀ {home} {source : Object Value}, AllValues (P .heap) source.members →
    Keeps (Q home) (fun _ => True) (Object.merge source)
  mergeOrUpdate : ∀ {home} {source : Object Value}, AllValues (P .heap) source.members →
    Keeps (Q home) (fun _ => True) (Object.mergeOrUpdate source)
  clear : ∀ {home}, Keeps (Q home) (fun _ => True) Object.clear
  reserve : ∀ {home} additional, Keeps (Q home) (fun _ => True) (Object.reserve additional)
  editValue? : ∀ {home} {β : Type} {J : β → Prop} pos {e : Edit Value β}, Keeps (P home) J e →
    Keeps (Q home) (IfSome J) (Object.editValue? pos e)

theorem Object.editable {P : Home → Value → Prop} (lasting : Lasting P) :
    Editable P (Carries P) where
  insertOrAssign := insertOrAssign_carries lasting
  tryEmplace := tryEmplace_carries lasting
  erase := erase_carries
  merge := (passing lasting).merge
  mergeOrUpdate := (passing lasting).mergeOrUpdate
  clear := clear_carries
  reserve := reserve_carries
  editValue? pos _ inner := editValue?_carries pos inner

/-- A property of values that goes by layers: the home of a container and its parts decide. -/
structure Layered (P : Home → Value → Prop) (Q : Home → Object Value → Prop) : Prop extends
    Lasting P, Editable P Q where
  leaf : ∀ t x, P .heap (.leaf t x)
  null : ∀ {home} t, P home (.leaf t .null)
  withTag : ∀ {home v} t, P home v → P home (v.withTag t)
  resolve : ∀ {home v}, P home v → P .heap v.resolve
  promote : ∀ {home v}, P home v → P home v.promote
  items : ∀ {home t s}, P home (.array t s) → ∀ v ∈ s.items, P s.home v
  withItems : ∀ {home t s s'}, P home (.array t s) → Sequence.Holds P s.home s' →
    P home (.array t s')
  empty : Q .heap {}
  values : ∀ {home o}, Q home o → AllValues (P home) o.members
  object : ∀ {home t o}, P home (.object t o) → Q o.home o
  withMembers : ∀ {home t o o'}, P home (.object t o) → Q o.home o' → P home (.object t o')

namespace Value

variable {P : Home → Value → Prop} {Q : Home → Object Value → Prop} {home : Home} {β : Type}
variable {J : β → Prop}

section Containers

theorem zoom_array (layered : Layered P Q) {e : Edit (Sequence Value) β}
    (inner : ∀ home, Keeps (Sequence.Holds P home) J e) {t : Tag} {s : Sequence Value}
    (holds : P home (array t s)) : Keeps (P home) J (Edit.zoom s (array t) e) :=
  .zoom (inner s.home) ⟨rfl, layered.items holds⟩ fun _ => layered.withItems holds

theorem zoom_object (layered : Layered P Q) {e : Edit (Object Value) β}
    (inner : ∀ home, Keeps (Q home) J e) {t : Tag} {o : Object Value}
    (holds : P home (object t o)) : Keeps (P home) J (Edit.zoom o (object t) e) :=
  .zoom (inner o.home) (layered.object holds) fun _ => layered.withMembers holds

theorem onArray_keeps (layered : Layered P Q) {e : Edit (Sequence Value) β}
    (inner : ∀ home, Keeps (Sequence.Holds P home) J e) : Keeps (P home) J (onArray e) := by
  refine .bind .subject fun v holds => ?_
  split
  · exact zoom_array layered inner holds
  · exact .fail _

theorem onObject_keeps (layered : Layered P Q) {e : Edit (Object Value) β}
    (inner : ∀ home, Keeps (Q home) J e) : Keeps (P home) J (onObject e) := by
  refine .bind .subject fun v holds => ?_
  have promoted := layered.promote holds
  split
  · rename_i same
    rw [same] at promoted
    exact zoom_object layered inner promoted
  · exact .fail _

end Containers

section Readings

theorem asSequence?_keeps (layered : Layered P Q) {v : Value} (holds : P .heap v)
    {s : Sequence Value} (held : v.asSequence? = some s) : ∀ w ∈ s.items, P s.home w := by
  have resolved := layered.resolve holds
  unfold asSequence? at held
  split at held
  · rename_i same
    cases held
    rw [same] at resolved
    exact layered.items resolved
  · cases held

theorem asObject?_keeps (layered : Layered P Q) {v : Value} (holds : P .heap v)
    {o : Object Value} (held : v.asObject? = some o) : Q o.home o := by
  have resolved := layered.resolve holds
  unfold asObject? at held
  split at held
  · rename_i same
    cases held
    rw [same] at resolved
    exact layered.object resolved
  · cases held
    exact layered.empty
  · cases held

theorem asObject?_of_toObject {v : Value} {o : Object Value} (held : v.toObject = .ok o) :
    v.asObject? = some o := by
  unfold toObject at held
  unfold asObject?
  split at held <;> cases held <;> simp only [*]

theorem toObject_keeps (layered : Layered P Q) {source : Value} (holds : P .heap source)
    {o : Object Value} (held : source.toObject = .ok o) : AllValues (P .heap) o.members :=
  fun m isIn =>
    have kept := asObject?_keeps layered holds (asObject?_of_toObject held)
    layered.freed (layered.values kept m isIn)

end Readings

section Operations

theorem insert_keeps (layered : Layered P Q) (pos : Nat) {v : Value} (holds : P .heap v) :
    Keeps (P home) (fun _ => True) (insert pos v) := by
  refine onArray_keeps layered fun _ => .bind .subject fun s _ => ?_
  split
  · exact .fail_bind
  · exact (Sequence.insert_keeps layered.toLasting pos holds).discard

theorem erase_keeps (layered : Layered P Q) (pos : Nat) :
    Keeps (P home) (P .heap) (erase pos) := by
  refine onArray_keeps layered fun _ => .bind .subject fun s _ => ?_
  split
  · exact .fail_bind
  · exact (Sequence.erase_keeps pos).imp fun _ => layered.freed

theorem insertOrAssign_keeps (layered : Layered P Q) (key : String) {v : Value}
    (holds : P .heap v) : Keeps (P home) (fun _ => True) (insertOrAssign key v) :=
  onObject_keeps layered fun _ =>
    .bind (layered.insertOrAssign key holds) fun _ _ => .pure trivial

theorem tryEmplace_keeps (layered : Layered P Q) (key : String) {v : Value}
    (holds : P .heap v) : Keeps (P home) (fun _ => True) (tryEmplace key v) :=
  onObject_keeps layered fun _ => .bind (layered.tryEmplace key holds) fun _ _ => .pure trivial

theorem merge_keeps (layered : Layered P Q) {source : Value} (holds : P .heap source) :
    Keeps (P home) (fun _ => True) (merge source) := by
  unfold merge
  split
  · rename_i held
    exact onObject_keeps layered fun _ => layered.merge (toObject_keeps layered holds held)
  · exact .fail _

theorem mergeOrUpdate_keeps (layered : Layered P Q) {source : Value} (holds : P .heap source) :
    Keeps (P home) (fun _ => True) (mergeOrUpdate source) := by
  unfold mergeOrUpdate
  split
  · rename_i held
    exact onObject_keeps layered fun _ =>
      layered.mergeOrUpdate (toObject_keeps layered holds held)
  · exact .fail _

theorem eraseKey_keeps (layered : Layered P Q) (key : String) :
    Keeps (P home) (IfSome (P .heap)) (eraseKey key) := by
  refine .bind .subject fun v _ => ?_
  split
  · exact .pure .none
  · exact onObject_keeps layered fun _ => (layered.erase key).imp fun _ found w same =>
      layered.freed (found w same)
  · exact .fail _

theorem editAt_keeps (layered : Layered P Q) (i : Nat) {e : Edit Value β}
    (inner : ∀ home, Keeps (P home) J e) : Keeps (P home) J (editAt i e) := by
  refine .bind .subject fun v holds => ?_
  split
  · exact zoom_array layered (fun home => Sequence.editAt_keeps i (inner home)) holds
  · exact zoom_object layered
      (fun home => Object.editAt_keeps (layered.editValue? i (inner home))) holds
  · exact .fail _
  · exact .fail _

theorem reserve_keeps (layered : Layered P Q) (additional : Nat) :
    Keeps (P home) (fun _ => True) (reserve additional) := by
  refine .bind .subject fun v holds => ?_
  split
  · exact zoom_array layered (fun _ => Sequence.reserve_keeps additional) holds
  · exact zoom_object layered (fun _ => layered.reserve additional) holds
  · split
    · exact .pure trivial
    · exact .bind (.checkRoom additional) fun _ _ =>
        onObject_keeps layered fun _ => layered.reserve additional
  · exact .pure trivial

theorem clear_keeps (layered : Layered P Q) : Keeps (P home) (fun _ => True) clear := by
  refine .bind .subject fun v holds => ?_
  split
  · exact zoom_array layered (fun _ => Sequence.clear_keeps) holds
  · exact zoom_object layered (fun _ => layered.clear) holds
  · exact .pure trivial

theorem take_keeps (layered : Layered P Q) : Keeps (P home) (P .heap) take :=
  .bind .subject fun _ holds => .bind (.put (layered.null _)) fun _ _ =>
    .pure (layered.freed holds)

theorem textIn_leaf {place : Home} {s : String} {v : Value} {l m : Ledger}
    (made : textIn place s l = .ok v m) : ∃ x, v = .leaf .plain x := by
  cases place with
  | heap =>
    cases made
    exact ⟨_, rfl⟩
  | arena n =>
    unfold textIn at made
    dsimp only at made
    split at made
    · cases made
      exact ⟨_, rfl⟩
    · obtain ⟨_, _, -, ⟨⟩⟩ := bind_eq_ok made
      exact ⟨_, rfl⟩

theorem bytesIn_leaf {place : Home} {b : List UInt8} {v : Value} {l m : Ledger}
    (made : bytesIn place b l = .ok v m) : ∃ x, v = .leaf .plain x := by
  cases place with
  | heap =>
    cases made
    exact ⟨_, rfl⟩
  | arena n =>
    obtain ⟨_, _, -, ⟨⟩⟩ := bind_eq_ok made
    exact ⟨_, rfl⟩

theorem putMade_keeps (layered : Layered P Q) (free : ∀ v, P .heap v → P home v)
    (onRefusal : Refusal → Failure) {c : Charging Value} (forward : Forward c)
    (leaves : ∀ {v l m}, c l = .ok v m → ∃ x, v = .leaf .plain x) :
    Keeps (P home) (fun _ => True) (Edit.charge onRefusal c >>= Edit.put) := by
  refine .bind (.charge (J := P home) onRefusal forward ?_) fun _ new => .put new
  intro v l m made
  obtain ⟨x, rfl⟩ := leaves made
  exact free _ (layered.leaf _ x)

end Operations

end Value

def ValueOp.values : ValueOp → List Value
  | push v | insert _ v | resize _ v | insertOrAssign _ v | tryEmplace _ v => [v]
  | merge v | mergeOrUpdate v | assignAt _ v | assign v => [v]
  | _ => []

def ValueOp.Inserting : ValueOp → Prop
  | assignAt .. | assign _ | setTextIn .. | trySetTextIn .. | trySetBytesIn .. => False
  | _ => True

theorem ValueOp.run_keeps {P : Home → Value → Prop} {Q : Home → Object Value → Prop}
    (layered : Layered P Q) (op : ValueOp) (given : ∀ v ∈ op.values, P .heap v)
    (placed : op.Inserting ∨ ∀ home v, P .heap v → P home v) (home : Home) :
    Keeps (P home) (Answer.Holds (P .heap)) op.run := by
  open Value in
  have one : ∀ {v : Value}, (∀ w ∈ [v], P .heap w) → P .heap v :=
    fun all => all _ List.mem_cons_self
  have lasting := layered.toLasting
  cases op with
  | push v => exact (onArray_keeps layered fun _ => Sequence.push_keeps lasting (one given)).done
  | insert pos v => exact (insert_keeps layered pos (one given)).done
  | erase pos => exact .bind (erase_keeps layered pos) fun _ holds => .pure holds
  | resize n v =>
    exact (onArray_keeps layered fun _ => Sequence.resize_keeps lasting n (one given)).done
  | insertOrAssign key v =>
    exact .bind (insertOrAssign_keeps layered key (one given)) fun _ _ => .pure trivial
  | tryEmplace key v =>
    exact .bind (tryEmplace_keeps layered key (one given)) fun _ _ => .pure trivial
  | eraseKey key => exact .bind (eraseKey_keeps layered key) fun _ holds => .pure holds
  | merge source => exact (merge_keeps layered (one given)).done
  | mergeOrUpdate source => exact (mergeOrUpdate_keeps layered (one given)).done
  | assignAt pos v =>
    have holds := placed.elim False.elim fun free home => free home v (one given)
    exact (editAt_keeps layered pos fun home => .put (holds home)).done
  | reserve additional => exact (reserve_keeps layered additional).done
  | clear => exact (clear_keeps layered).done
  | shrinkToFit => exact Keeps.done (.update fun _ => lasting.shrunk)
  | take => exact .bind (take_keeps layered) fun _ holds => .pure holds
  | assign v =>
    have holds := placed.elim False.elim fun free => free home v (one given)
    exact Keeps.done (.put holds)
  | setTag t => exact Keeps.done (.update fun _ => layered.withTag t)
  | setTextIn place s =>
    have free := placed.elim False.elim fun free => free home
    exact Keeps.done (putMade_keeps layered free _ (.textIn place s) textIn_leaf)
  | trySetTextIn place s =>
    have free := placed.elim False.elim fun free => free home
    exact Keeps.done (putMade_keeps layered free _ (.textIn place s) textIn_leaf)
  | trySetBytesIn place b =>
    have free := placed.elim False.elim fun free => free home
    exact Keeps.done (putMade_keeps layered free _ (.bytesIn place b) bytesIn_leaf)

namespace Value

variable {P : Home → Value → Prop} {Q : Home → Object Value → Prop} {home : Home} {β : Type}
variable {J : β → Prop}

theorem editChild?_keeps (layered : Layered P Q) (p : Step) {e : Edit Value β}
    (inner : ∀ home, Keeps (P home) J e) : Keeps (P home) (IfSome J) (editChild? p e) := by
  refine .bind .subject fun v holds => ?_
  have promoted := layered.promote holds
  split
  · rename_i same
    rw [same] at promoted
    exact zoom_array layered (fun home => Sequence.editItem?_keeps _ (inner home)) promoted
  · rename_i same
    rw [same] at promoted
    exact zoom_object layered (fun home => Object.editKey?_keeps _ fun pos =>
      layered.editValue? pos (inner home)) promoted
  · exact .pure .none

theorem editPath_keeps (layered : Layered P Q) (path : List Step) {e : Edit Value β}
    (inner : ∀ home, Keeps (P home) J e) (home : Home) :
    Keeps (P home) (IfSome J) (editPath path e) := by
  induction path generalizing home with
  | nil => exact (inner home).map fun _ => .some
  | cons p path ih =>
    exact (editChild?_keeps layered p ih).map fun _ holds _ found =>
      holds _ (Option.join_eq_some_iff.mp found) _ rfl

theorem editSlot_keeps (layered : Layered P Q) (free : ∀ home v, P .heap v → P home v) (p : Step)
    {e : Edit Value β} (inner : ∀ home, Keeps (P home) J e) : Keeps (P home) J (editSlot p e) := by
  refine .bind .subject fun v holds => ?_
  cases p with
  | index i =>
    dsimp only
    split
    · split
      · exact .fault_bind
      · exact zoom_array layered (fun home => Sequence.editItem_keeps i (inner home)) holds
    · exact .fault _
  | key k =>
    have start : P home (if v.kind = .null then emptyObject else v) := by
      split
      · exact free _ _ (layered.leaf _ _)
      · exact holds
    have promoted := layered.promote start
    dsimp only
    split
    · rename_i same
      rw [same] at promoted
      exact zoom_object layered (fun home => .bind (layered.tryEmplace k (layered.leaf _ _))
        fun _ _ => Object.editAt_keeps (layered.editValue? _ (inner home))) promoted
    · exact .fault _

theorem editSlots_keeps (layered : Layered P Q) (free : ∀ home v, P .heap v → P home v)
    (path : List Step) {e : Edit Value β} (inner : ∀ home, Keeps (P home) J e) (home : Home) :
    Keeps (P home) J (editSlots path e) := by
  induction path generalizing home with
  | nil => exact inner home
  | cons p path ih => exact editSlot_keeps layered free p ih

end Value

/-- An operation on a value of a document, or on the array or the object that it is. -/
inductive NodeOp where
  | value (op : ValueOp)
  | array (op : SequenceOp)
  | object (op : ObjectOp (Object Value))

namespace NodeOp

def run : NodeOp → Edit Value Answer
  | value op => op.run
  | array op => Value.onArray op.run
  | object op => Value.onObject op.run

def runAt (path : List Step) (node : NodeOp) : Edit Value (Option Answer) :=
  Value.editPath path node.run

def values : NodeOp → Object Value → List Value
  | value op, _ => op.values
  | array op, _ => op.values
  | object op, o => op.values o

def Stays : NodeOp → Prop
  | object op => op.Stays
  | _ => True

def Inserting : NodeOp → Prop
  | value op => op.Inserting
  | array op => op.Inserting
  | object op => op.Inserting

theorem Inserting.stays {node : NodeOp} (inserting : node.Inserting) : node.Stays := by
  cases node with
  | object op => exact ObjectOp.Inserting.stays inserting
  | _ => trivial

variable {P : Home → Value → Prop} {node : NodeOp}

theorem run_keeps (layered : Layered P (Carries P)) (stays : node.Stays)
    (given : ∀ o, ∀ v ∈ node.values o, P .heap v)
    (placed : node.Inserting ∨ ∀ home v, P .heap v → P home v) (home : Home) :
    Keeps (P home) (fun _ => True) node.run := by
  cases node with
  | value op => exact (op.run_keeps layered (given {}) placed home).silent
  | array op =>
    exact Value.onArray_keeps layered fun here =>
      (op.run_keeps layered.toLasting (given {}) (placed.imp_right fun free => free here)).silent
  | object op =>
    exact Value.onObject_keeps layered fun here o l old =>
      (op.run_stays (Object.passing layered.toLasting) stays (given o)
        (placed.imp_right fun free => free here) old l).silent

theorem runAt_keeps (layered : Layered P (Carries P)) (path : List Step) (stays : node.Stays)
    (given : ∀ o, ∀ v ∈ node.values o, P .heap v)
    (placed : node.Inserting ∨ ∀ home v, P .heap v → P home v) (home : Home) :
    Keeps (P home) (fun _ => True) (node.runAt path) :=
  (Value.editPath_keeps layered path (run_keeps layered stays given placed) home).silent

end NodeOp

end DocTree
