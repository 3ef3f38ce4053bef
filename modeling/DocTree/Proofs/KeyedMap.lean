import Mathlib.Data.Finmap
import Mathlib.Data.Finset.Sort
import DocTree.Proofs.Operations

/-!
The plain account of an object that is ordered by key: a finite map. The position of a key is the
number of keys below it, and hints say nothing.
-/

namespace DocTree

abbrev Entries := Finmap fun _ : String => Value

namespace Entries

/-- How many keys lie below this one. -/
def rank (d : Entries) (key : String) : Nat := (d.keys.filter (· < key)).card

def sortedKeys (d : Entries) : List String := d.keys.sort (· ≤ ·)

def listing (d : Entries) : List (Member Value) :=
  d.sortedKeys.filterMap fun key => (d.lookup key).map (Member.mk key)

def addNew (d : Entries) (m : Member Value) : Entries :=
  if m.key ∈ d then d else d.insert m.key m.value

def addAllNew (d : Entries) (ms : List (Member Value)) : Entries := ms.foldl addNew d

def eraseAll (d : Entries) (keys : List String) : Entries :=
  keys.foldl (fun d key => d.erase key) d

section Lemmas

variable (d : Entries)

theorem lookup_insert (key : String) (v : Value) (other : String) :
    (d.insert key v).lookup other = if key = other then some v else d.lookup other := by
  split
  · rename_i same
    rw [← same, Finmap.lookup_insert]
  · rename_i apart
    exact Finmap.lookup_insert_of_ne d (Ne.symm apart)

theorem lookup_erase (key other : String) :
    (d.erase key).lookup other = if key = other then none else d.lookup other := by
  split
  · rename_i same
    rw [← same, Finmap.lookup_erase]
  · rename_i apart
    exact Finmap.lookup_erase_ne (Ne.symm apart)

theorem lookup_addNew (m : Member Value) (key : String) :
    (d.addNew m).lookup key =
      (d.lookup key).or (if m.key = key then some m.value else none) := by
  unfold addNew
  by_cases known : m.key ∈ d
  · rw [if_pos known]
    by_cases same : m.key = key
    · subst same
      obtain ⟨v, found⟩ := Finmap.mem_iff.mp known
      rw [found]
      rfl
    · rw [if_neg same, Option.or_none]
  · rw [if_neg known, lookup_insert]
    by_cases same : m.key = key
    · rw [← same, Finmap.lookup_eq_none.mpr known, if_pos rfl, Option.none_or]
    · rw [if_neg same, if_neg same, Option.or_none]

theorem lookup_addAllNew (ms : List (Member Value)) (key : String) :
    (d.addAllNew ms).lookup key = (d.lookup key).or (DocTree.lookup ms key) := by
  induction ms generalizing d with
  | nil => exact Option.or_none.symm
  | cons m ms ih =>
    change ((d.addNew m).addAllNew ms).lookup key = _
    rw [ih, lookup_addNew, Option.or_assoc, lookup_cons]
    by_cases same : m.key = key <;> simp [same]

theorem lookup_eraseAll (keys : List String) (key : String) :
    (d.eraseAll keys).lookup key = if key ∈ keys then none else d.lookup key := by
  induction keys generalizing d with
  | nil => simp [eraseAll]
  | cons k keys ih =>
    change (eraseAll (d.erase k) keys).lookup key = _
    rw [ih, lookup_erase]
    by_cases later : key ∈ keys
    · simp [later]
    · simp [later, eq_comm]

theorem mem_sortedKeys (key : String) : key ∈ d.sortedKeys ↔ key ∈ d := by
  rw [sortedKeys, Finset.mem_sort, Finmap.mem_keys]

theorem sortedKeys_ascending : d.sortedKeys.Pairwise (· < ·) := by
  have sorted := Finset.pairwise_sort d.keys (· ≤ ·)
  have distinct := Finset.sort_nodup d.keys (· ≤ ·)
  exact (sorted.and distinct).imp fun h => lt_of_le_of_ne h.1 h.2

theorem map_key_listing : d.listing.map Member.key = d.sortedKeys := by
  have all : ∀ key ∈ d.sortedKeys,
      ((d.lookup key).map (Member.mk key)).map Member.key = some key := by
    intro key member
    obtain ⟨v, found⟩ := Finmap.mem_iff.mp ((d.mem_sortedKeys key).mp member)
    rw [found]
    rfl
  rw [listing, List.map_filterMap, List.filterMap_congr all, List.filterMap_some]

theorem listing_ascending : AscendingBy Member.key d.listing := by
  have keys := d.sortedKeys_ascending
  rw [← map_key_listing] at keys
  exact List.pairwise_map.mp keys

theorem length_listing : d.listing.length = d.keys.card := by
  rw [← List.length_map, map_key_listing, sortedKeys, Finset.length_sort]

theorem lookup_listing (key : String) : DocTree.lookup d.listing key = d.lookup key := by
  apply Option.ext
  intro v
  rw [lookup_eq_some_iff d.listing_ascending.distinct, listing, List.mem_filterMap]
  constructor
  · rintro ⟨k, -, held⟩
    obtain ⟨w, found, same⟩ := Option.map_eq_some_iff.mp held
    cases same
    exact found
  · intro found
    refine ⟨key, (d.mem_sortedKeys key).mpr (Finmap.mem_of_lookup_eq_some found), ?_⟩
    rw [found]
    rfl

end Lemmas

end Entries

structure KeyedMap where
  home : Home := .heap
  entries : Entries := ∅

namespace KeyedMap

def find (d : KeyedMap) (key : String) : Nat :=
  if key ∈ d.entries then d.entries.rank key else d.entries.keys.card

def get? (d : KeyedMap) (key : String) : Option Value := d.entries.lookup key

def at? (d : KeyedMap) (i : Nat) : Except Error Value :=
  match d.entries.listing[i]? with
  | some m => .ok m.value
  | none => .error (.outOfRange i d.entries.keys.card)

def renew : ObjectOrigin → Charging KeyedMap
  | .empty home => return { home }
  | .withCapacity home capacity => do
    haveRoom capacity
    return { home }
  | .ofMembers home ms => return ⟨home, Entries.addAllNew ∅ (← adoptMembersIn home ms)⟩
  | .ofSortedUnique ms => return ⟨.heap, Entries.addAllNew ∅ ms⟩

/-- Puts a value under a key. A known key keeps its value unless `overwrite` is set. Answers the
rank of the key and whether it was new. -/
def assign (key : String) (v : Value) (overwrite : Bool) : Edit KeyedMap (Nat × Bool) := do
  let d ← Edit.subject
  if key ∈ d.entries then
    if overwrite then
      let v ← Edit.orExhausted (v.adoptIn d.home)
      Edit.put { d with entries := d.entries.insert key v }
    return (d.entries.rank key, false)
  else
    let v ← Edit.orExhausted (v.adoptIn d.home)
    Edit.put { d with entries := d.entries.insert key v }
    return (d.entries.rank key, true)

def tryAssign (key : String) (v : Value) : Edit KeyedMap (Nat × Bool) := do
  assign key (← Edit.orRefused (v.adoptIn (← Edit.subject).home)) true

def assignAll (source : List (Member Value)) (overwrite : Bool) : Edit KeyedMap Unit :=
  source.forM fun m => discard (assign m.key m.value overwrite)

def eraseAt (pos : Nat) : Edit KeyedMap (Member Value) := do
  let d ← Edit.subject
  match d.entries.listing[pos]? with
  | some m =>
    Edit.put { d with entries := d.entries.erase m.key }
    return m
  | none => Edit.fault .outOfBounds

def erase (key : String) : Edit KeyedMap (Option Value) := do
  let d ← Edit.subject
  Edit.put { d with entries := d.entries.erase key }
  return d.entries.lookup key

/-- Removes the entries whose keys have a rank in the range. -/
def eraseRange (low high : Bound) : Edit KeyedMap Unit := do
  let d ← Edit.subject
  let (start, stop) ← Edit.ofExcept (span low high d.entries.keys.card)
  Edit.put { d with entries := d.entries.eraseAll ((d.entries.sortedKeys.take stop).drop start) }

def extend (ms : List (Member Value)) : Edit KeyedMap Unit := do
  let d ← Edit.subject
  let ms ← Edit.orExhausted (adoptMembersIn d.home ms)
  Edit.put { d with entries := d.entries.addAllNew ms }

def assignAt (pos : Nat) (v : Value) : Edit KeyedMap Unit := do
  let d ← Edit.subject
  match d.entries.listing[pos]? with
  | some m => Edit.put { d with entries := d.entries.insert m.key v }
  | none => Edit.fail (.outOfRange pos d.entries.keys.card)

def assignKey (key : String) (v : Value) : Edit KeyedMap Bool := do
  let d ← Edit.subject
  if key ∈ d.entries then
    Edit.put { d with entries := d.entries.insert key v }
    return true
  else return false

def mapValues (f : String → Value → Value) : Edit KeyedMap Unit :=
  Edit.update fun d =>
    { d with entries := Entries.addAllNew ∅ (mapMembers f d.entries.listing) }

def reserve (additional : Nat) : Edit KeyedMap Unit := do
  let d ← Edit.subject
  checkRoom (d.entries.keys.card + additional)
  Edit.put d

def run : ObjectOp (Object Value) → Edit KeyedMap Answer
  | .renew origin => done do Edit.put (← Edit.orExhausted (renew origin))
  | .insertOrAssign key v => do
    let (pos, isNew) ← assign key v true
    return .placed pos isNew
  | .tryInsertOrAssign key v => do
    let (pos, isNew) ← tryAssign key v
    return .placed pos isNew
  | .tryEmplace key v => do
    let (pos, isNew) ← assign key v false
    return .placed pos isNew
  | .insertOrAssignHint _ key v => return .position (← assign key v true).1
  | .tryEmplaceHint _ key v => return .position (← assign key v false).1
  | .erase key => return .value? (← erase key)
  | .eraseAt pos => return .member (← eraseAt pos)
  | .eraseRange low high => done (eraseRange low high)
  | .merge source | .mergeHint _ source => done (assignAll source.members false)
  | .mergeOrUpdate source | .mergeOrUpdateHint _ source => done (assignAll source.members true)
  | .extend ms | .extendSortedUnique ms => done (extend ms)
  | .assignAt pos v => done (assignAt pos v)
  | .assignKey key v => return .flag (← assignKey key v)
  | .assignEach f => done (mapValues f)
  | .clear => done (Edit.update fun d => { d with entries := ∅ })
  | .reserve additional => done (reserve additional)
  | .shrinkToFit => done (mapValues fun _ v => v.shrinkToFit)

end KeyedMap

end DocTree
