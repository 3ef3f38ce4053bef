import DocTree.Proofs.Equality
import DocTree.Proofs.Failing
import DocTree.Proofs.KeyedMap
import DocTree.Proofs.Ordered
import DocTree.Proofs.PlainList

/-!
Operations as what they make of the values under keys. The finite map and the plain list are read
the same way.
-/

namespace DocTree

/-- How a container is read: its home, and the value under each key while it is well formed. -/
structure Reader (σ : Type) where
  home : σ → Home
  value? : σ → String → Option Value
  Valid : σ → Prop

def KeyedMap.reader : Reader KeyedMap where
  home := KeyedMap.home
  value? d := d.entries.lookup
  Valid _ := True

def Object.reader : Reader (Object Value) where
  home := Object.home
  value? o := lookup o.members
  Valid := Object.Ordered

def InsertionObject.reader : Reader (InsertionObject Value) where
  home := InsertionObject.home
  value? o := lookup o.members
  Valid := InsertionObject.Indexed

def PlainList.reader : Reader PlainList where
  home := PlainList.home
  value? p := lookup p.members
  Valid p := Distinct p.members

/-- What is under a key once members are added by an object in `home`. The order of the members
does not show in it. -/
def adding (overwrite : Bool) (ms : List (Member Value)) (home : Home)
    (f : String → Option Value) (key : String) : Option Value :=
  if overwrite then ((lookup ms key).map (·.housedIn home)).or (f key)
  else (f key).or ((lookup ms key).map (·.housedIn home))

def removing (removed : String) (_home : Home) (f : String → Option Value) (key : String) :
    Option Value :=
  if removed = key then none else f key

section Outcomes

variable {σ α β ε : Type}

/-- How an edit ends that changes what is under the keys: as told, or with its arena exhausted. -/
inductive Outcome (r : Reader σ) (x : σ) (after : String → Option Value) (tells : α → Prop) :
    EStateM.Result Failure (Scene σ) α → Prop where
  | ok {a : α} {y : σ} {l : Ledger} :
      r.Valid y → r.home y = r.home x → (∀ key, r.value? y key = after key) → tells a →
        Outcome r x after tells (.ok a ⟨y, l⟩)
  | exhausted {bytes : Nat} {s : Scene σ} :
      r.home x ≠ .heap → Outcome r x after tells (.error (.exhausted bytes) s)

abbrev Change := Home → (String → Option Value) → String → Option Value

def Effect (r : Reader σ) (e : Edit σ α) (change : Change)
    (tells : (String → Option Value) → α → Prop) : Prop :=
  ∀ x l, r.Valid x → Outcome r x (change (r.home x) (r.value? x)) (tells (r.value? x)) (e ⟨x, l⟩)

def Gives (home : Home) (c : Charging ε) (a : ε) : Prop :=
  ∀ l, (∃ l', c l = .ok a l') ∨ home ≠ .heap ∧ ∃ bytes l', c l = .error (.copy bytes) l'

theorem adoptIn_gives (home : Home) (v : Value) :
    Gives home (v.adoptIn home) (v.housedIn home) := by
  intro l
  cases adopted : v.adoptIn home l with
  | ok w l' => exact .inl ⟨l', by rw [Value.adoptIn_ok adopted]⟩
  | error r l' =>
    obtain ⟨bytes, rfl⟩ := Value.adoptIn_copying home v _ _ _ adopted
    refine .inr ⟨?_, bytes, l', rfl⟩
    rintro rfl
    cases adopted

theorem adoptMembersIn_gives (home : Home) (ms : List (Member Value)) :
    Gives home (adoptMembersIn home ms) (ms.map fun m => ⟨m.key, m.value.housedIn home⟩) := by
  intro l
  cases adopted : adoptMembersIn home ms l with
  | ok ks l' => exact .inl ⟨l', by rw [adoptMembersIn_ok adopted]⟩
  | error r l' =>
    obtain ⟨bytes, rfl⟩ := adoptMembersIn_copying home ms _ _ _ adopted
    refine .inr ⟨?_, bytes, l', rfl⟩
    rintro rfl
    cases adopted

theorem Outcome.charge {r : Reader σ} {x : σ} {after : String → Option Value} {tells : α → Prop}
    {c : Charging ε} {a : ε} (gives : Gives (r.home x) c a) {g : ε → Edit σ α} {l : Ledger}
    (next : ∀ l', Outcome r x after tells (g a ⟨x, l'⟩)) :
    Outcome r x after tells ((Edit.orExhausted c >>= g) ⟨x, l⟩) := by
  change Outcome r x after tells (EStateM.bind _ g _)
  unfold EStateM.bind Edit.orExhausted Edit.charge
  rcases gives l with ⟨l', given⟩ | ⟨away, bytes, l', refused⟩
  · simpa only [given] using next l'
  · simpa only [refused] using .exhausted away

theorem Outcome.transfer {τ : Type} {r : Reader σ} {r' : Reader τ} {R : σ → τ → Prop}
    (reads : ∀ x y, R x y →
      r.Valid x ∧ r.home x = r'.home y ∧ ∀ key, r.value? x key = r'.value? y key)
    {x : σ} {y : τ} (start : R x y) {after : String → Option Value} {tells : α → Prop}
    {result : EStateM.Result Failure (Scene σ) α} {other : EStateM.Result Failure (Scene τ) α}
    (alike : Alike R Eq result other) (outcome : Outcome r' y after tells other) :
    Outcome r x after tells result := by
  obtain ⟨-, sameHome, -⟩ := reads x y start
  cases outcome with
  | ok valid home values told =>
    cases alike with
    | ok same matched =>
      obtain ⟨valid', home', values'⟩ := reads _ _ matched
      refine .ok valid' ?_ (fun key => (values' key).trans (values key)) (same ▸ told)
      rw [home', home, sameHome]
  | exhausted away =>
    cases alike with
    | error matched => exact .exhausted (sameHome ▸ away)

theorem Outcome.answer {r : Reader σ} {x : σ} {after : String → Option Value} {tells : α → Prop}
    {e : Edit σ α} {s : Scene σ} (outcome : Outcome r x after tells (e s)) {k : α → Edit σ β}
    {reports : β → Prop} (put : ∀ a, ∃ b, k a = pure b ∧ (tells a → reports b)) :
    Outcome r x after reports ((e >>= k) s) := by
  change Outcome r x after reports (EStateM.bind e k s)
  unfold EStateM.bind
  generalize e s = result at outcome ⊢
  cases outcome with
  | ok valid home values told =>
    obtain ⟨b, same, reported⟩ := put _
    dsimp only
    rw [same]
    exact .ok valid home values (reported told)
  | exhausted away => exact .exhausted away

theorem Outcome.silent {r : Reader σ} {x : σ} {after : String → Option Value} {e : Edit σ Unit}
    {s : Scene σ} (outcome : Outcome r x after (fun _ => True) (e s)) :
    Outcome r x after (fun a => a = .nothing) (done e s) :=
  outcome.answer fun _ => ⟨_, rfl, fun _ => rfl⟩

theorem Effect.answer {r : Reader σ} {e : Edit σ α} {change : Change}
    {tells : (String → Option Value) → α → Prop} (effect : Effect r e change tells)
    {k : α → Edit σ β} {reports : (String → Option Value) → β → Prop}
    (put : ∀ a, ∃ b, k a = pure b ∧ ∀ f, tells f a → reports f b) :
    Effect r (e >>= k) change reports := by
  intro x l valid
  apply (effect x l valid).answer
  intro a
  obtain ⟨b, same, reported⟩ := put a
  exact ⟨b, same, reported _⟩

theorem Effect.silent {r : Reader σ} {e : Edit σ Unit} {change : Change}
    (effect : Effect r e change fun _ _ => True) :
    Effect r (done e) change fun _ a => a = .nothing :=
  fun x l valid => (effect x l valid).silent

theorem Effect.map {r : Reader σ} {e : Edit σ α} {change : Change}
    {tells : (String → Option Value) → α → Prop} (effect : Effect r e change tells) (g : α → β)
    {reports : (String → Option Value) → β → Prop} (told : ∀ f a, tells f a → reports f (g a)) :
    Effect r (g <$> e) change reports := by
  intro x l valid
  have outcome := effect x l valid
  change Outcome r x _ _ (EStateM.map g e _)
  unfold EStateM.map
  generalize e ⟨x, l⟩ = result at outcome ⊢
  cases outcome with
  | ok valid' home values said => exact .ok valid' home values (told _ _ said)
  | exhausted away => exact .exhausted away

theorem Effect.bind {r : Reader σ} {e : Edit σ α} {g : α → Edit σ β} {first second : Change}
    {tells : (String → Option Value) → α → Prop} (now : Effect r e first tells)
    (next : ∀ a, Effect r (g a) second fun _ _ => True) :
    Effect r (e >>= g) (fun home f => second home (first home f)) fun _ _ => True := by
  intro x l valid
  have outcome := now x l valid
  change Outcome r x _ _ (EStateM.bind e g _)
  unfold EStateM.bind
  generalize e ⟨x, l⟩ = result at outcome ⊢
  cases outcome with
  | @ok a y l' valid' home values _ =>
    have same : r.value? y = first (r.home x) (r.value? x) := funext values
    have rest := next a y l' valid'
    rw [home, same] at rest
    dsimp only
    generalize g a ⟨y, l'⟩ = result at rest ⊢
    cases rest with
    | ok valid'' home' values' told => exact .ok valid'' (home'.trans home) values' told
    | exhausted away => exact .exhausted (home ▸ away)
  | exhausted away => exact .exhausted away

theorem Effect.congr {r : Reader σ} {e : Edit σ α} {change other : Change}
    {tells : (String → Option Value) → α → Prop} (effect : Effect r e change tells)
    (same : ∀ home f key, change home f key = other home f key) : Effect r e other tells := by
  obtain rfl : change = other := funext fun home => funext fun f => funext (same home f)
  exact effect

end Outcomes

section Adding

variable {σ γ : Type} {r : Reader σ}

theorem adding_cons (overwrite : Bool) (m : Member Value) (ms : List (Member Value))
    (apart : overwrite = true → m.key ∉ ms.map Member.key) (home : Home)
    (f : String → Option Value) (key : String) :
    adding overwrite ms home (adding overwrite [m] home f) key =
      adding overwrite (m :: ms) home f key := by
  unfold adding
  rw [lookup_cons, lookup_cons, lookup_nil]
  by_cases here : m.key = key
  · cases overwrite with
    | false => cases f key <;> simp [here]
    | true =>
      have absent := (lookup_eq_none_iff ms key).mpr (here ▸ apart rfl)
      simp [here, absent]
  · simp [here]

theorem adding_written {overwrite : Bool} {f : String → Option Value} {key : String}
    (free : overwrite = true ∨ f key = none) (v : Value) (home : Home) (other : String) :
    adding overwrite [⟨key, v⟩] home f other =
      if key = other then some (v.housedIn home) else f other := by
  unfold adding
  rw [lookup_cons, lookup_nil]
  by_cases same : key = other
  · subst same
    rcases free with rfl | absent
    · simp
    · cases overwrite <;> simp [absent]
  · cases overwrite <;> simp [same]

theorem adding_known {f : String → Option Value} {key : String} {w : Value}
    (held : f key = some w) (v : Value) (home : Home) (other : String) :
    adding false [⟨key, v⟩] home f other = f other := by
  unfold adding
  rw [lookup_cons, lookup_nil]
  by_cases same : key = other
  · simp [← same, held]
  · simp [same]

theorem removing_unknown {f : String → Option Value} {key : String} (absent : f key = none)
    (home : Home) (other : String) : removing key home f other = f other := by
  unfold removing
  by_cases same : key = other
  · simp [← same, absent]
  · simp [same]

theorem adding_nil (overwrite : Bool) (home : Home) (f : String → Option Value) (key : String) :
    adding overwrite [] home f key = f key := by
  unfold adding
  cases overwrite
  · exact Option.or_none
  · rfl

theorem Effect.ofNone (a : γ) (overwrite : Bool) :
    Effect r (pure a) (adding overwrite []) fun _ _ => True :=
  fun _ _ valid => .ok valid rfl (fun key => (adding_nil overwrite _ _ key).symm) trivial

theorem Effect.forM {overwrite : Bool} {ms : List (Member Value)}
    {e : Member Value → Edit σ PUnit}
    (each : ∀ m, Effect r (e m) (adding overwrite [m]) fun _ _ => True)
    (distinct : Distinct ms) : Effect r (ms.forM e) (adding overwrite ms) fun _ _ => True := by
  induction ms with
  | nil => exact .ofNone _ overwrite
  | cons m ms ih =>
    obtain ⟨fresh, distinct⟩ := (distinct_cons m ms).mp distinct
    have both := (each m).bind fun _ => ih distinct
    exact both.congr (adding_cons overwrite m ms fun _ => fresh)

theorem Effect.foldlM {overwrite : Bool} {ms : List (Member Value)}
    {e : γ → Member Value → Edit σ γ}
    (each : ∀ a m, Effect r (e a m) (adding overwrite [m]) fun _ _ => True)
    (distinct : Distinct ms) (a : γ) :
    Effect r (ms.foldlM e a) (adding overwrite ms) fun _ _ => True := by
  induction ms generalizing a with
  | nil => exact .ofNone _ overwrite
  | cons m ms ih =>
    obtain ⟨fresh, distinct⟩ := (distinct_cons m ms).mp distinct
    rw [List.foldlM_cons]
    have both := (each a m).bind fun b => ih distinct b
    exact both.congr (adding_cons overwrite m ms fun _ => fresh)

end Adding

theorem lookup_map_housedIn (ms : List (Member Value)) (home : Home) (key : String) :
    lookup (ms.map fun m => ⟨m.key, m.value.housedIn home⟩) key =
      (lookup ms key).map (·.housedIn home) := by
  induction ms with
  | nil => rfl
  | cons m ms ih =>
    rw [List.map_cons, lookup_cons, lookup_cons, ih]
    by_cases here : m.key = key <;> simp [here]

namespace KeyedMap

theorem assign_effect (key : String) (v : Value) (overwrite : Bool) :
    Effect reader (assign key v overwrite) (adding overwrite [⟨key, v⟩])
      fun f placed => placed.2 = (f key).isNone := by
  intro d l _
  unfold assign
  rw [subject_bind]
  dsimp only
  have written (free : overwrite = true ∨ d.entries.lookup key = none) (other : String) :
      (d.entries.insert key (v.housedIn d.home)).lookup other =
        adding overwrite [⟨key, v⟩] d.home d.entries.lookup other := by
    rw [Entries.lookup_insert, adding_written free]
  by_cases known : key ∈ d.entries
  · obtain ⟨w, found⟩ := Finmap.mem_iff.mp known
    have flag : false = (d.entries.lookup key).isNone := by rw [found]; rfl
    rw [if_pos known]
    cases overwrite with
    | false =>
      exact .ok trivial rfl (fun other => (adding_known found v d.home other).symm) flag
    | true =>
      exact Outcome.charge (adoptIn_gives d.home v) fun l' =>
        .ok trivial rfl (written (.inl rfl)) flag
  · have absent := Finmap.lookup_eq_none.mpr known
    have flag : true = (d.entries.lookup key).isNone := by rw [absent]; rfl
    rw [if_neg known]
    exact Outcome.charge (adoptIn_gives d.home v) fun l' =>
      .ok trivial rfl (written (.inr absent)) flag

theorem assignAll_effect {source : List (Member Value)} (distinct : Distinct source)
    (overwrite : Bool) :
    Effect reader (assignAll source overwrite) (adding overwrite source) fun _ _ => True :=
  .forM (fun m => (assign_effect m.key m.value overwrite).map _ fun _ _ _ => trivial) distinct

theorem erase_effect (key : String) :
    Effect reader (erase key) (removing key) fun f erased => erased = f key := by
  intro d l _
  refine .ok trivial rfl (fun other => ?_) rfl
  exact Entries.lookup_erase d.entries key other

theorem extend_effect (ms : List (Member Value)) :
    Effect reader (extend ms) (adding false ms) fun _ _ => True := by
  intro d l _
  apply Outcome.charge (adoptMembersIn_gives d.home ms)
  intro l'
  refine .ok trivial rfl (fun key => ?_) trivial
  apply (Entries.lookup_addAllNew d.entries _ key).trans
  rw [lookup_map_housedIn]
  rfl

theorem clear_effect :
    Effect reader (Edit.update fun d => { d with entries := ∅ }) (fun _ _ _ => none)
      fun _ _ => True :=
  fun _ _ _ => .ok trivial rfl (fun _ => rfl) trivial

end KeyedMap

namespace PlainList

theorem place_effect (pos : Nat) (key : String) (v : Value) (overwrite : Bool) :
    Effect reader (place pos key v overwrite) (adding overwrite [⟨key, v⟩])
      fun f placed => placed.2 = (f key).isNone := by
  intro p l distinct
  unfold place position?
  rw [subject_bind]
  dsimp only
  cases found : p.members.findIdx? (·.key = key) with
  | some found =>
    have here := (distinct.findIdx?_eq_some_iff key _).mp found
    obtain ⟨w, held⟩ := Option.isSome_iff_exists.mp
      ((lookup_isSome_iff p.members key).mpr (List.mem_of_getElem? here))
    have flag : false = (lookup p.members key).isNone := by rw [held]; rfl
    cases overwrite with
    | false =>
      exact .ok distinct rfl (fun other => (adding_known held v p.home other).symm) flag
    | true =>
      apply Outcome.charge (adoptIn_gives p.home v)
      intro l'
      refine .ok ?_ rfl (fun other => ?_) flag
      · change Distinct (p.members.set _ _)
        rw [← modify_eq_set here, Distinct, map_key_modify]
        exact distinct
      · change lookup (p.members.set _ _) other = _
        rw [← modify_eq_set here, lookup_modify distinct here]
        exact (adding_written (.inl rfl) v p.home other).symm
  | none =>
    have fresh := (findIdx?_eq_none_iff_unknown p.members key).mp found
    have absent := (lookup_eq_none_iff p.members key).mpr fresh
    have flag : true = (lookup p.members key).isNone := by rw [absent]; rfl
    apply Outcome.charge (adoptIn_gives p.home v)
    intro l'
    have perm : (p.members.take pos ++ ⟨key, v.housedIn p.home⟩ :: p.members.drop pos).Perm
        (⟨key, v.housedIn p.home⟩ :: p.members) := by
      apply List.perm_middle.trans
      rw [List.take_append_drop]
    refine .ok (distinct.withMember fresh perm) rfl (fun other => ?_) flag
    have written := lookup_withMember distinct fresh perm other
    exact written.trans (adding_written (.inr absent) v p.home other).symm

theorem append_effect (key : String) (v : Value) (overwrite : Bool) :
    Effect reader (append key v overwrite) (adding overwrite [⟨key, v⟩])
      fun f placed => placed.2 = (f key).isNone :=
  fun p l distinct => place_effect p.members.length key v overwrite p l distinct

theorem splice_effect (hint : Nat) (key : String) (v : Value) (overwrite : Bool) :
    Effect reader (splice hint key v overwrite) (adding overwrite [⟨key, v⟩])
      fun _ _ => True := by
  intro p l distinct
  have placed : Effect reader (Prod.fst <$> place (min hint p.members.length) key v overwrite)
      (adding overwrite [⟨key, v⟩]) fun _ _ => True :=
    (place_effect _ key v overwrite).map Prod.fst fun _ _ _ => trivial
  exact placed p l distinct

theorem appendAll_effect {source : List (Member Value)} (distinct : Distinct source)
    (overwrite : Bool) :
    Effect reader (appendAll source overwrite) (adding overwrite source) fun _ _ => True :=
  .forM (fun m => (append_effect m.key m.value overwrite).map _ fun _ _ _ => trivial) distinct

theorem spliceAll_effect (hint : Nat) {source : List (Member Value)} (distinct : Distinct source)
    (overwrite : Bool) :
    Effect reader (spliceAll hint source overwrite) (adding overwrite source)
      fun _ _ => True := by
  intro p l valid
  have loop := Effect.foldlM (fun pos m => (splice_effect pos m.key m.value overwrite).map
    (fun placed => if placed = pos then pos + 1 else pos) fun _ _ _ => trivial) distinct
      (min hint p.members.length)
  have whole : Effect reader (discard _) (adding overwrite source) fun _ _ => True :=
    loop.map (fun _ => ()) fun _ _ _ => trivial
  exact whole p l valid

theorem erase_effect (key : String) :
    Effect reader (erase key) (removing key) fun f erased => erased = f key := by
  intro p l distinct
  unfold erase position?
  rw [subject_bind]
  dsimp only
  cases found : p.members.findIdx? (·.key = key) with
  | some pos =>
    have keyHere := (distinct.findIdx?_eq_some_iff key pos).mp found
    obtain ⟨m, here, rfl⟩ := (key_at_iff _ _ _).mp keyHere
    have removed : eraseAt pos ⟨p, l⟩ =
        .ok m ⟨{ p with members := p.members.eraseIdx pos }, l⟩ := by
      unfold eraseAt
      rw [subject_bind]
      dsimp only
      rw [here]
      rfl
    dsimp only
    rw [bind_of_ok removed]
    refine .ok (distinct.sublist (List.eraseIdx_sublist _ pos)) rfl (fun other => ?_) ?_
    · exact lookup_eraseIdx distinct keyHere other
    · exact (lookup_of_position distinct here).symm
  | none =>
    have fresh := (findIdx?_eq_none_iff_unknown p.members key).mp found
    have absent := (lookup_eq_none_iff p.members key).mpr fresh
    exact .ok distinct rfl (fun other => (removing_unknown absent p.home other).symm) absent.symm

theorem extend_effect (ms : List (Member Value)) :
    Effect reader (extend ms) (adding false ms) fun _ _ => True := by
  intro p l distinct
  apply Outcome.charge (adoptMembersIn_gives p.home ms)
  intro l'
  refine .ok (nodup_addAllNew Member.key p.members _ distinct) rfl (fun key => ?_) trivial
  apply (lookup_addAllNew p.members _ key).trans
  rw [lookup_map_housedIn]
  rfl

theorem extendSortedUnique_outcome {ms : List (Member Value)} {p : PlainList}
    (distinct : Distinct p.members) (incoming : Distinct ms)
    (fresh : ∀ m ∈ ms, m.key ∉ p.members.map Member.key) (l : Ledger) :
    Outcome reader p (adding false ms p.home (lookup p.members)) (fun _ => True)
      (extendSortedUnique ms ⟨p, l⟩) := by
  apply Outcome.charge (adoptMembersIn_gives p.home ms)
  intro l'
  refine .ok ?_ rfl (fun key => ?_) trivial
  · change ((p.members ++ _).map Member.key).Nodup
    rw [List.map_append, List.map_map]
    have whole := distinct.append incoming fresh
    rwa [Distinct, List.map_append] at whole
  · apply (lookup_append p.members _ key).trans
    rw [lookup_map_housedIn]
    rfl

theorem clear_effect :
    Effect reader (Edit.update fun p => { p with members := [] }) (fun _ _ _ => none)
      fun _ _ => True :=
  fun _ _ _ => .ok List.nodup_nil rfl (fun _ => rfl) trivial

end PlainList

end DocTree
