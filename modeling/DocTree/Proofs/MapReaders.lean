import DocTree.Proofs.MapEquality
import DocTree.Proofs.References
import DocTree.Proofs.RoundTrip

namespace DocTree

theorem Leaf.storage_eq_emptyObject_iff (x : Leaf) :
    x.storage = .emptyObject ↔ x = .emptyObject := by
  cases x with
  | text home s =>
    rw [Leaf.storage]
    split <;> simp
  | _ => simp [Leaf.storage]

namespace Event

def parts : Event → List Event
  | present e => [e]
  | sequence _ es => es
  | map _ es => es.map Prod.snd
  | _ => []

/-- An event inside another, at any depth, or the event itself. -/
inductive Within : Event → Event → Prop
  | here (e : Event) : Within e e
  | part {e f g : Event} : f ∈ e.parts → Within g f → Within g e

def Everywhere (P : Event → Prop) (e : Event) : Prop := ∀ f, Within f e → P f

theorem everywhere_iff {P : Event → Prop} {e : Event} :
    Everywhere P e ↔ P e ∧ ∀ f ∈ e.parts, Everywhere P f := by
  constructor
  · intro everywhere
    exact ⟨everywhere e (.here e), fun f isPart g within => everywhere g (.part isPart within)⟩
  · rintro ⟨own, parts⟩ f within
    cases within with
    | here => exact own
    | part isPart within => exact parts _ isPart _ within

/-- The reader of values has a method for the event. A format that fails gives it none to visit. -/
def HasVisitor : Event → Prop
  | wideSigned _ | wideUnsigned _ | newtype _ | variant _ | failure _ => False
  | _ => True

def text? : Event → Option String
  | text s => some s
  | _ => none

def TextKeys : Event → Prop
  | map _ es => ∀ entry ∈ es, entry.1.text?.isSome
  | _ => True

/-- The event without the marks that say that something is there. -/
def bare : Event → Event
  | present e => e.bare
  | e => e

/-- What a step leads to. In a map it is the first entry with the key. -/
def child? (e : Event) (p : Step) : Option Event :=
  match e.bare, p with
  | sequence _ es, .index i => es[i]?
  | map _ es, .key k => (es.find? fun entry => entry.1.text? = some k).map Prod.snd
  | _, _ => none

def follow? (e : Event) : List Step → Option Event
  | [] => some e
  | p :: ps => (e.child? p).bind fun f => f.follow? ps

theorem sizeOf_part {e f : Event} (isPart : f ∈ e.parts) : sizeOf f < sizeOf e := by
  cases e with
  | present e =>
    obtain rfl := List.mem_singleton.mp isPart
    simp
  | sequence hint es =>
    have inside : sizeOf f < sizeOf es := List.sizeOf_lt_of_mem isPart
    simp only [sequence.sizeOf_spec]
    omega
  | map hint es =>
    obtain ⟨entry, isIn, rfl⟩ := List.mem_map.mp isPart
    have inside : sizeOf entry < sizeOf es := List.sizeOf_lt_of_mem isIn
    have second : sizeOf entry.2 < sizeOf entry := by
      cases entry
      simp
    simp only [map.sizeOf_spec]
    omega
  | _ => cases isPart

theorem inductionOnParts {P : Event → Prop} (step : ∀ e, (∀ f ∈ e.parts, P f) → P e) (e : Event) :
    P e :=
  step e fun f isPart =>
    have : sizeOf f < sizeOf e := sizeOf_part isPart
    inductionOnParts step f
termination_by sizeOf e

theorem readItems_eq_ok_iff (es : List Event) (vs : List Value) :
    readItems es = .ok vs ↔ List.Forall₂ (fun v e => e.read = .ok v) vs es := by
  induction es generalizing vs with
  | nil =>
    rw [List.forall₂_nil_right_iff]
    exact ⟨fun held => (Except.ok.inj held).symm, fun none => none ▸ rfl⟩
  | cons e es ih =>
    constructor
    · intro held
      obtain ⟨v, first, held⟩ := Except.of_bind_ok held
      obtain ⟨vs, rest, ⟨⟩⟩ := Except.of_bind_ok held
      exact .cons first ((ih vs).mp rest)
    · intro related
      obtain ⟨v, vs, first, rest, rfl⟩ := List.forall₂_cons_right_iff.mp related
      change (e.read >>= fun v => readItems es >>= fun vs => pure (v :: vs)) = _
      rw [first, (ih vs).mpr rest]
      rfl

theorem readEntries_eq_ok_iff (es : List (Event × Event)) (ms : List (Member Value)) :
    readEntries es = .ok ms ↔
      List.Forall₂ (fun m e => e.1.readKey = .ok m.key ∧ e.2.read = .ok m.value) ms es := by
  induction es generalizing ms with
  | nil =>
    rw [List.forall₂_nil_right_iff]
    exact ⟨fun held => (Except.ok.inj held).symm, fun none => none ▸ rfl⟩
  | cons e es ih =>
    constructor
    · intro held
      obtain ⟨key, name, held⟩ := Except.of_bind_ok held
      obtain ⟨v, first, held⟩ := Except.of_bind_ok held
      obtain ⟨ms, rest, ⟨⟩⟩ := Except.of_bind_ok held
      exact .cons ⟨name, first⟩ ((ih ms).mp rest)
    · intro related
      obtain ⟨m, ms, ⟨name, first⟩, rest, rfl⟩ := List.forall₂_cons_right_iff.mp related
      change (e.1.readKey >>= fun key => e.2.read >>= fun v =>
        readEntries es >>= fun ms => pure (⟨key, v⟩ :: ms)) = _
      rw [name, first, (ih ms).mpr rest]
      rfl

theorem exists_forall₂_iff {α β : Type} {r : α → β → Prop} (ys : List β) :
    (∃ xs, List.Forall₂ r xs ys) ↔ ∀ y ∈ ys, ∃ x, r x y := by
  induction ys with
  | nil => exact ⟨fun _ => nofun, fun _ => ⟨[], .nil⟩⟩
  | cons y ys ih =>
    rw [List.forall_mem_cons, ← ih]
    constructor
    · rintro ⟨xs, related⟩
      obtain ⟨x, xs, first, rest, rfl⟩ := List.forall₂_cons_right_iff.mp related
      exact ⟨⟨x, first⟩, xs, rest⟩
    · rintro ⟨⟨x, first⟩, xs, rest⟩
      exact ⟨x :: xs, .cons first rest⟩

theorem readKey_of_text {e : Event} {key : String} (named : e.text? = some key) :
    e.readKey = .ok key := by
  cases e with
  | text s => exact congrArg Except.ok (Option.some.inj named)
  | _ => cases named

theorem exists_ok_of_map {ε α β : Type} {x : Except ε α} {g : α → β} :
    (∃ b, (x >>= fun a => pure (g a)) = .ok b) ↔ ∃ a, x = .ok a := by
  cases x with
  | ok a => exact ⟨fun _ => ⟨a, rfl⟩, fun _ => ⟨g a, rfl⟩⟩
  | error e => exact ⟨nofun, nofun⟩

theorem readEntries_ok_iff {es : List (Event × Event)}
    (names : ∀ entry ∈ es, entry.1.text?.isSome) :
    (∃ ms, readEntries es = .ok ms) ↔ ∀ entry ∈ es, ∃ v, entry.2.read = .ok v := by
  simp only [readEntries_eq_ok_iff, exists_forall₂_iff]
  apply forall₂_congr
  intro entry isIn
  obtain ⟨key, named⟩ := Option.isSome_iff_exists.mp (names entry isIn)
  constructor
  · rintro ⟨m, -, held⟩
    exact ⟨m.value, held⟩
  · rintro ⟨v, held⟩
    exact ⟨⟨key, v⟩, readKey_of_text named, held⟩

theorem read_ok_iff (e : Event) (keyed : Everywhere TextKeys e) :
    (∃ v, e.read = .ok v) ↔ Everywhere HasVisitor e := by
  induction e using inductionOnParts with
  | step e ih =>
    obtain ⟨names, keyed⟩ := everywhere_iff.mp keyed
    have below : (∀ f ∈ e.parts, ∃ v, f.read = .ok v) ↔
        ∀ f ∈ e.parts, Everywhere HasVisitor f :=
      forall₂_congr fun f isPart => ih f isPart (keyed f isPart)
    rw [everywhere_iff, ← below]
    cases e with
    | present e =>
      change (∃ v, e.read = .ok v) ↔ True ∧ ∀ f ∈ [e], ∃ v, f.read = .ok v
      rw [true_and, List.forall_mem_singleton]
    | sequence hint es =>
      change (∃ v, (readItems es >>= fun vs => pure (Value.ofSequence (.ofList vs))) = .ok v) ↔
        True ∧ ∀ f ∈ es, ∃ v, f.read = .ok v
      simp only [true_and, exists_ok_of_map, readItems_eq_ok_iff, exists_forall₂_iff]
    | map hint es =>
      change (∃ v, (readEntries es >>= fun ms => pure (Value.ofMembers ms)) = .ok v) ↔
        True ∧ ∀ f ∈ es.map Prod.snd, ∃ v, f.read = .ok v
      rw [exists_ok_of_map, readEntries_ok_iff names, true_and, List.forall_mem_map]
    | _ => simp [read, parts, HasVisitor]

theorem entries_related {es : List (Event × Event)} {ms : List (Member Value)}
    (names : ∀ entry ∈ es, entry.1.text?.isSome) (held : readEntries es = .ok ms) :
    List.Forall₂ (fun m e => e.1.text? = some m.key ∧ e.2.read = .ok m.value) ms es := by
  have related := (readEntries_eq_ok_iff es ms).mp held
  clear held
  induction related with
  | nil => exact .nil
  | @cons m e ms es first _ ih =>
    obtain ⟨own, names⟩ := List.forall_mem_cons.mp names
    obtain ⟨key, named⟩ := Option.isSome_iff_exists.mp own
    have same : key = m.key := Except.ok.inj ((readKey_of_text named).symm.trans first.1)
    exact .cons ⟨same ▸ named, first.2⟩ (ih names)

theorem lookup_related {es : List (Event × Event)} {ms : List (Member Value)}
    (related : List.Forall₂ (fun m e => e.1.text? = some m.key ∧ e.2.read = .ok m.value) ms es)
    (key : String) : Option.Rel (fun w f => Event.read f = .ok w) (lookup ms key)
      ((es.find? fun entry => entry.1.text? = some key).map Prod.snd) := by
  induction related with
  | nil => exact .none
  | @cons m e ms es first _ ih =>
    obtain ⟨named, held⟩ := first
    rw [lookup_cons, List.find?_cons]
    by_cases here : m.key = key
    · simp only [here] at named
      simpa [named, here] using Option.Rel.some held
    · have apart : e.1.text? ≠ some key := by
        rw [named]
        exact fun same => here (Option.some.inj same)
      simpa [here, apart] using ih

theorem get?_ofMembers (ms : List (Member Value)) (key : String) :
    (Value.ofMembers ms).get? (.key key) = lookup ms key := by
  cases ms with
  | nil => rfl
  | cons m ms =>
    have ordered : (Object.ofMembers .heap (m :: ms)).Ordered := Object.ofMembers_ascending .heap _
    exact (ordered.get?_eq_lookup key).trans (Object.lookup_ofMembers .heap (m :: ms) key)

/-- A value is what the event reads as, and it is the empty object where the event is a map without
entries. -/
structure ReadsAs (v : Value) (e : Event) : Prop where
  read : e.read = .ok v
  empty : v.storage = .emptyObject ↔ ∃ hint, e.bare = map hint []

theorem ofMembers_storage (ms : List (Member Value)) :
    (Value.ofMembers ms).storage = .emptyObject ↔ ms = [] := by
  cases ms with
  | nil => exact ⟨fun _ => rfl, fun _ => rfl⟩
  | cons m ms => exact ⟨nofun, nofun⟩

theorem readsAs (e : Event) {v : Value} (held : e.read = .ok v) : ReadsAs v e := by
  refine ⟨held, ?_⟩
  induction e using inductionOnParts generalizing v with
  | step e ih =>
    cases e with
    | present e => exact ih e List.mem_cons_self held
    | map hint es =>
      obtain ⟨ms, entries, ⟨⟩⟩ := Except.of_bind_ok held
      have size := ((readEntries_eq_ok_iff es ms).mp entries).length_eq
      rw [ofMembers_storage, ← List.length_eq_zero_iff, size, List.length_eq_zero_iff]
      exact ⟨fun none => ⟨hint, none ▸ rfl⟩, fun ⟨_, same⟩ => (Event.map.inj same).2⟩
    | sequence hint es =>
      obtain ⟨vs, items, ⟨⟩⟩ := Except.of_bind_ok held
      exact iff_of_false (by rintro ⟨⟩) (by rintro ⟨_, ⟨⟩⟩)
    | unsigned n =>
      cases held
      obtain ⟨m, -, same⟩ | same := Value.ofWord_cases n <;> rw [same] <;>
        exact iff_of_false (by rintro ⟨⟩) (by rintro ⟨_, ⟨⟩⟩)
    | text s =>
      cases held
      refine iff_of_false (fun empty => ?_) (by rintro ⟨_, ⟨⟩⟩)
      cases (Leaf.storage_eq_emptyObject_iff (.text .heap s)).mp empty
    | _ => cases held <;> exact iff_of_false (by rintro ⟨⟩) (by rintro ⟨_, ⟨⟩⟩)

theorem get?_related (e : Event) (keyed : Everywhere TextKeys e) {v : Value}
    (held : e.read = .ok v) (p : Step) :
    Option.Rel (fun w f => Event.read f = .ok w) (v.get? p) (e.child? p) := by
  induction e using inductionOnParts with
  | step e ih =>
    obtain ⟨names, keyed⟩ := everywhere_iff.mp keyed
    cases e with
    | present e => exact ih e List.mem_cons_self (keyed e List.mem_cons_self) held
    | map hint es =>
      obtain ⟨ms, entries, ⟨⟩⟩ := Except.of_bind_ok held
      cases p with
      | key k =>
        rw [get?_ofMembers]
        exact lookup_related (entries_related names entries) k
      | index i => cases ms <;> exact .none
    | sequence hint es =>
      obtain ⟨vs, items, ⟨⟩⟩ := Except.of_bind_ok held
      cases p with
      | key k => exact .none
      | index i => exact getElem?_rel ((readItems_eq_ok_iff es vs).mp items) i
    | unsigned n =>
      cases held
      obtain ⟨m, -, same⟩ | same := Value.ofWord_cases n <;> rw [same] <;> cases p <;> exact .none
    | _ => cases held <;> cases p <;> exact .none

theorem child?_isPart {e f : Event} {p : Step} (leads : e.child? p = some f) : Within f e := by
  induction e using inductionOnParts with
  | step e ih =>
    cases e with
    | present e => exact .part List.mem_cons_self (ih e List.mem_cons_self leads)
    | sequence hint es =>
      cases p with
      | index i => exact .part (List.mem_of_getElem? leads) (.here f)
      | key k => cases leads
    | map hint es =>
      cases p with
      | index i => cases leads
      | key k =>
        obtain ⟨entry, found, rfl⟩ := Option.map_eq_some_iff.mp leads
        exact .part (List.mem_map_of_mem (List.mem_of_find?_eq_some found)) (.here _)
    | _ => cases leads

theorem Within.trans {e f g : Event} (inner : Within g f) (outer : Within f e) : Within g e := by
  induction outer with
  | here e => exact inner
  | part isPart _ ih => exact .part isPart (ih inner)

theorem getPath?_related (path : List Step) (e : Event) (keyed : Everywhere TextKeys e) {v : Value}
    (held : e.read = .ok v) : Option.Rel ReadsAs (v.getPath? path) (e.follow? path) := by
  induction path generalizing e v with
  | nil => exact .some (readsAs e held)
  | cons p path ih =>
    have step := get?_related e keyed held p
    unfold Value.getPath? follow?
    obtain ⟨first, second⟩ | ⟨w, f, first, second, read⟩ := rel_cases step
    · rw [first, second]
      exact .none
    · rw [first, second]
      exact ih f (fun g within => keyed g (within.trans (child?_isPart second))) read

/-- The keys of a map, as they arrive. -/
def keys : Event → List String
  | map _ es => es.filterMap fun entry => entry.1.text?
  | _ => []

theorem keys_related {es : List (Event × Event)} {ms : List (Member Value)}
    (related : List.Forall₂ (fun m e => e.1.text? = some m.key ∧ e.2.read = .ok m.value) ms es)
    (hint : Option Nat) : ms.map Member.key = (map hint es).keys := by
  change ms.map Member.key = es.filterMap fun entry => entry.1.text?
  induction related with
  | nil => rfl
  | cons first _ ih => simp only [List.map_cons, List.filterMap_cons, first.1, ih]

/-- One map, read three times. -/
structure SameMap (e : Event) (v : Value) (o : Object Value) (p : InsertionObject Value) :
    Prop where
  equal : ∀ a ∈ [ObjectForm.value v, .sorted o, .inserted p],
    ∀ b ∈ [ObjectForm.value v, .sorted o, .inserted p], a.equals b = true
  value : ∀ path, Option.Rel ReadsAs (v.getPath? path) (e.follow? path)
  sorted : ∀ key path,
    Option.Rel ReadsAs ((o.get? key).bind (·.getPath? path)) (e.follow? (.key key :: path))
  inserted : ∀ key path,
    Option.Rel ReadsAs ((p.get? key).bind (·.getPath? path)) (e.follow? (.key key :: path))
  order : p.members.map Member.key = e.keys.eraseDups
  empty : v.storage = .emptyObject ↔ ∃ hint, e = map hint []

/-- What the three readers make of one event: they fail in the same way where it has something
inside that cannot be visited, and else they all succeed. -/
inductive ThreeReadings (e : Event) : Except Error Value → Except Error (Object Value) →
    Except Error (InsertionObject Value) → Prop
  | failed {f : Error} : (∃ g, Within g e ∧ ¬ g.HasVisitor) →
      ThreeReadings e (.error f) (.error f) (.error f)
  | read {v : Value} {o : Object Value} {p : InsertionObject Value} :
      (∀ g, Within g e → g.HasVisitor) → SameMap e v o p →
      ThreeReadings e (.ok v) (.ok o) (.ok p)

theorem readings_of_ok {es : List (Event × Event)} {ms : List (Member Value)}
    (held : readEntries es = .ok ms) (hint : Option Nat) :
    (map hint es).read = .ok (.ofMembers ms) ∧
      (map hint es).readObject = .ok (.ofMembers .heap ms) ∧
      (map hint es).readInsertionObject = .ok (.ofMembers .heap ms) := by
  change (readEntries es >>= fun ms => pure (Value.ofMembers ms)) = _ ∧
    (readEntries es >>= fun ms => pure (Object.ofMembers .heap ms)) = _ ∧
    (readEntries es >>= fun ms => pure (InsertionObject.ofMembers .heap ms)) = _
  rw [held]
  exact ⟨rfl, rfl, rfl⟩

theorem readings_of_error {es : List (Event × Event)} {f : Error}
    (held : readEntries es = .error f) (hint : Option Nat) :
    (map hint es).read = .error f ∧ (map hint es).readObject = .error f ∧
      (map hint es).readInsertionObject = .error f := by
  change (readEntries es >>= fun ms => pure (Value.ofMembers ms)) = _ ∧
    (readEntries es >>= fun ms => pure (Object.ofMembers .heap ms)) = _ ∧
    (readEntries es >>= fun ms => pure (InsertionObject.ofMembers .heap ms)) = _
  rw [held]
  exact ⟨rfl, rfl, rfl⟩

theorem asObject?_ofMembers_isSome (ms : List (Member Value)) :
    (Value.ofMembers ms).asObject?.isSome := by
  cases ms <;> rfl

theorem sorted_get? (ms : List (Member Value)) (key : String) :
    (Object.ofMembers .heap ms).get? key = lookup ms key := by
  have ordered : (Object.ofMembers .heap ms).Ordered := Object.ofMembers_ascending .heap ms
  rw [ordered.get?_eq_lookup, Object.lookup_ofMembers]

theorem inserted_members (ms : List (Member Value)) :
    (InsertionObject.ofMembers .heap ms).members = addAllNew Member.key [] ms :=
  InsertionObject.dedup_members _ ms

theorem inserted_get? (ms : List (Member Value)) (key : String) :
    (InsertionObject.ofMembers .heap ms).get? key = lookup ms key := by
  have sound : (InsertionObject.ofMembers .heap ms).Indexed := InsertionObject.indexed_dedup _ ms
  rw [sound.get?_eq_lookup, inserted_members, lookup_addAllNew]
  rfl

theorem sameMap {hint : Option Nat} {es : List (Event × Event)}
    (keyed : Everywhere TextKeys (map hint es)) {ms : List (Member Value)}
    (held : readEntries es = .ok ms) :
    SameMap (map hint es) (.ofMembers ms) (.ofMembers .heap ms) (.ofMembers .heap ms) := by
  obtain ⟨asValue, asSorted, asInserted⟩ := readings_of_ok held hint
  have paths := fun path => getPath?_related path (map hint es) keyed asValue
  have alike : ∀ a ∈ [ObjectForm.value (.ofMembers ms), .sorted (.ofMembers .heap ms),
      .inserted (.ofMembers .heap ms)], a.Built ∧ ∀ key, a.get? key = lookup ms key := by
    simp only [List.forall_mem_cons]
    refine ⟨⟨⟨.read asValue, asObject?_ofMembers_isSome ms⟩, get?_ofMembers ms⟩,
      ⟨.read asSorted, sorted_get? ms⟩, ⟨.read asInserted, inserted_get? ms⟩, nofun⟩
  constructor
  case equal =>
    intro a first b second
    obtain ⟨built, values⟩ := alike a first
    obtain ⟨built', values'⟩ := alike b second
    exact built.equals_of_get? built' fun key => (values key).trans (values' key).symm
  case value => exact paths
  case sorted =>
    intro key path
    rw [sorted_get?, ← get?_ofMembers]
    exact paths (.key key :: path)
  case inserted =>
    intro key path
    rw [inserted_get?, ← get?_ofMembers]
    exact paths (.key key :: path)
  case order =>
    have names := (everywhere_iff.mp keyed).1
    have arrived := keys_related (entries_related names held) hint
    have firsts : (addAllNew Member.key [] ms).map Member.key =
        addAllNew id [] (ms.map Member.key) := map_addAllNew id Member.key [] ms
    rw [inserted_members, firsts, addAllNew_eq_eraseDups, arrived]
    simp
  case empty => exact (readsAs (map hint es) asValue).empty

/-- The three readers of maps agree: on whether they fail and how, on every value at every depth,
and on what equals what. -/
theorem map_readers_agree (hint : Option Nat) (es : List (Event × Event))
    (keyed : Everywhere TextKeys (map hint es)) :
    ThreeReadings (map hint es) (map hint es).read (map hint es).readObject
      (map hint es).readInsertionObject := by
  have visited := read_ok_iff (map hint es) keyed
  cases held : readEntries es with
  | ok ms =>
    obtain ⟨asValue, asSorted, asInserted⟩ := readings_of_ok held hint
    have whole := visited.mp ⟨_, asValue⟩
    rw [asValue, asSorted, asInserted]
    exact .read whole (sameMap keyed held)
  | error f =>
    obtain ⟨asValue, asSorted, asInserted⟩ := readings_of_error held hint
    have unvisited : ¬ Everywhere HasVisitor (map hint es) := by
      intro whole
      obtain ⟨v, read⟩ := visited.mpr whole
      rw [asValue] at read
      cases read
    rw [asValue, asSorted, asInserted]
    apply ThreeReadings.failed
    simpa only [Everywhere, not_forall, exists_prop] using unvisited

def sampleArrivals : List (Event × Event) :=
  [(text "b", present (map none [])),
    (text "a", sequence (some 9) [map none [(text "k", boolean true), (text "k", unit)]]),
    (text "b", wideSigned 0)]

theorem sampleArrivals_keyed : Everywhere TextKeys (map (some 7) sampleArrivals) := by
  have scalar (e : Event) (own : TextKeys e) (alone : e.parts = []) : Everywhere TextKeys e :=
    everywhere_iff.mpr ⟨own, alone ▸ nofun⟩
  have pairs : Everywhere TextKeys (map none [(text "k", boolean true), (text "k", unit)]) := by
    refine everywhere_iff.mpr ⟨by simp [TextKeys, text?], ?_⟩
    change ∀ f ∈ [boolean true, unit], Everywhere TextKeys f
    simp [scalar (boolean true) trivial rfl, scalar unit trivial rfl]
  have empty : Everywhere TextKeys (map none []) := scalar _ nofun rfl
  refine everywhere_iff.mpr ⟨by simp [TextKeys, text?, sampleArrivals], ?_⟩
  change ∀ f ∈ [present (map none []), sequence (some 9) [_], wideSigned 0], Everywhere TextKeys f
  have marked : Everywhere TextKeys (present (map none [])) :=
    everywhere_iff.mpr ⟨trivial, List.forall_mem_singleton.mpr empty⟩
  have listed : Everywhere TextKeys (sequence (some 9) [map none [(text "k", boolean true),
      (text "k", unit)]]) :=
    everywhere_iff.mpr ⟨trivial, List.forall_mem_singleton.mpr pairs⟩
  simp [marked, listed, scalar (wideSigned 0) trivial rfl]

theorem map_readers_agree_sample :
    Everywhere TextKeys (map (some 7) sampleArrivals) ∧
      ThreeReadings (map (some 7) sampleArrivals) (map (some 7) sampleArrivals).read
        (map (some 7) sampleArrivals).readObject
        (map (some 7) sampleArrivals).readInsertionObject :=
  ⟨sampleArrivals_keyed, map_readers_agree (some 7) sampleArrivals sampleArrivals_keyed⟩

end Event

end DocTree
