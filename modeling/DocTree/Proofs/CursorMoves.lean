import Mathlib.Algebra.Ring.Int.Defs
import DocTree.Cursor
import DocTree.Value.Basic

/-!
Where cursors lead. Positions are words that wrap around and offsets are signed words. With fewer
than two to the sixty-third entries a place outside wraps to a word past the end, so that an
access there is a fault.
-/

namespace DocTree

variable {α : Type}

section Words

theorem offset_toNat (pos : UInt64) (n : Int64) :
    ((offset pos n).toNat : Int) = (pos.toNat + n.toInt) % 2 ^ 64 := by
  have word : n.toInt = if 2 * n.toUInt64.toNat < 2 ^ 64 then (n.toUInt64.toNat : Int)
      else n.toUInt64.toNat - (2 ^ 64 : Nat) := n.toBitVec.toInt_eq_toNat_cond
  have sum := UInt64.toNat_add pos n.toUInt64
  unfold offset
  split at word <;> omega

/-- This holds of the least signed word too, although it is its own opposite. -/
theorem offset_neg_toNat (pos : UInt64) (n : Int64) :
    ((offset pos (-n)).toNat : Int) = (pos.toNat - n.toInt) % 2 ^ 64 := by
  have opposite : (-n.toInt).bmod (2 ^ 64) % 2 ^ 64 = -n.toInt % 2 ^ 64 := Int.bmod_emod
  rw [offset_toNat, Int64.toInt_neg]
  omega

theorem offset_offset_neg (pos : UInt64) (n : Int64) : offset (offset pos n) (-n) = pos := by
  have sum := offset_neg_toNat (offset pos n) n
  have first := offset_toNat pos n
  have bound := pos.toNat_lt
  apply UInt64.toNat_inj.mp
  omega

theorem toInt_toInt64 {pos : UInt64} (small : pos.toNat < signedLimit) :
    pos.toInt64.toInt = pos.toNat := by
  have word : pos.toInt64.toInt = if 2 * pos.toNat < 2 ^ 64 then (pos.toNat : Int)
      else pos.toNat - (2 ^ 64 : Nat) := pos.toBitVec.toInt_eq_toNat_cond
  unfold signedLimit at small
  rw [word, if_pos (by omega)]

end Words

theorem entry_eq_ok_iff (items : List α) (pos : UInt64) (x : α) :
    entry items pos = .ok x ↔ items[pos.toNat]? = some x := by
  unfold entry entry?
  cases items[pos.toNat]? <;> simp

theorem entry_eq_error_iff (items : List α) (pos : UInt64) :
    entry items pos = .error .outOfBounds ↔ items.length ≤ pos.toNat := by
  rw [← List.getElem?_eq_none_iff]
  unfold entry entry?
  cases items[pos.toNat]? <;> simp

namespace Cursor

/-- The place that an offset means. It may lie before the front or past the end. -/
def place (c : Cursor α) (n : Int64) : Int := c.pos.toNat + n.toInt

def placeBack (c : Cursor α) (n : Int64) : Int := c.pos.toNat - n.toInt

/-- The cursor stands at an entry or at the end of a container that memory may hold. -/
structure Inside (c : Cursor α) : Prop where
  size : c.items.length < signedLimit
  pos : c.pos.toNat ≤ c.items.length

structure Reaches (c : Cursor α) (n : Int64) (d : Cursor α) : Prop where
  items : d.items = c.items
  pos : (d.pos.toNat : Int) = c.place n
  back : d.sub n = c
  distance : d.distance c = n

/-- Stepping gives these entries, one after another, and then nothing any more. At every step as
many are left as the cursor says, and it moves on by one. -/
inductive Walks : Cursor α → List α → Prop
  | done {c : Cursor α} : c.remaining = 0 → c.next = (none, c) → Walks c []
  | step {c : Cursor α} {x : α} {xs : List α} : c.remaining = xs.length + 1 →
      c.next = (some x, c.add 1) → Walks (c.add 1) xs → Walks c (x :: xs)

section Moves

variable {c d : Cursor α}

theorem Inside.wrapped (inside : c.Inside) (n : Int64) :
    ((offset c.pos n).toNat : Int) = c.place n ∨
      c.place n < 0 ∧ c.items.length < (offset c.pos n).toNat := by
  have size := inside.size
  have pos := inside.pos
  have led := offset_toNat c.pos n
  have low := n.le_toInt
  have high := n.toInt_lt
  unfold signedLimit at size
  unfold place
  omega

theorem Inside.peek_eq_ok_iff (inside : c.Inside) (n : Int64) (x : α) :
    c.peek n = .ok x ↔ 0 ≤ c.place n ∧ c.items[(c.place n).toNat]? = some x := by
  rw [peek, entry_eq_ok_iff]
  obtain exact | ⟨before, past⟩ := inside.wrapped n
  · rw [← exact, Int.toNat_natCast]
    simp only [Int.natCast_nonneg, true_and]
  · rw [List.getElem?_eq_none (by omega)]
    simp only [reduceCtorEq, false_iff, not_and]
    intro after
    omega

theorem Inside.peek_eq_error_iff (inside : c.Inside) (n : Int64) :
    c.peek n = .error .outOfBounds ↔ ¬(0 ≤ c.place n ∧ c.place n < c.items.length) := by
  rw [peek, entry_eq_error_iff]
  have led := inside.wrapped n
  omega

theorem Inside.distance_toInt (here : c.Inside) (there : d.Inside) :
    (c.distance d).toInt = c.pos.toNat - d.pos.toNat := by
  have first := toInt_toInt64 (Nat.lt_of_le_of_lt here.pos here.size)
  have second := toInt_toInt64 (Nat.lt_of_le_of_lt there.pos there.size)
  have size := here.size
  have other := there.size
  have pos := here.pos
  have mark := there.pos
  unfold signedLimit at size other
  rw [distance, Int64.toInt_sub, first, second]
  exact Int.bmod_eq_of_le (by omega) (by omega)

theorem Inside.add (inside : c.Inside) {n : Int64} (front : 0 ≤ c.place n)
    (stop : c.place n ≤ c.items.length) : (c.add n).Inside ∧ c.Reaches n (c.add n) := by
  have reached : ((offset c.pos n).toNat : Int) = c.place n := by
    have led := inside.wrapped n
    omega
  have further : (c.add n).Inside := by
    refine ⟨inside.size, ?_⟩
    change (offset c.pos n).toNat ≤ c.items.length
    omega
  refine ⟨further, rfl, reached, ?_, ?_⟩
  · exact congrArg (Cursor.mk c.items) (offset_offset_neg c.pos n)
  · apply Int64.toInt_inj.mp
    rw [further.distance_toInt inside]
    change ((offset c.pos n).toNat : Int) - c.pos.toNat = n.toInt
    rw [reached, place]
    omega

theorem Inside.sub (inside : c.Inside) {n : Int64} (front : 0 ≤ c.placeBack n)
    (stop : c.placeBack n ≤ c.items.length) :
    ((c.sub n).pos.toNat : Int) = c.placeBack n := by
  have size := inside.size
  have led := offset_neg_toNat c.pos n
  unfold signedLimit at size
  change ((offset c.pos (-n)).toNat : Int) = _
  unfold placeBack at *
  omega

theorem sub_neg (c : Cursor α) (n : Int64) : c.sub (-n) = c.add n := by
  unfold sub add
  rw [Int64.neg_neg]

end Moves

section Walking

variable {c : Cursor α} {xs : List α}

theorem Inside.walks (inside : c.Inside) : c.Walks (c.items.drop c.pos.toNat) := by
  induction left : c.remaining generalizing c with
  | zero =>
    have atEnd : c.items.length ≤ c.pos.toNat := Nat.le_of_sub_eq_zero left
    rw [List.drop_eq_nil_of_le atEnd]
    refine .done left ?_
    rw [next, get?, entry?, List.getElem?_eq_none atEnd]
  | succ k ih =>
    have left' : c.items.length - c.pos.toNat = k + 1 := left
    have here : c.pos.toNat < c.items.length := by omega
    have ahead : c.place 1 = c.pos.toNat + 1 := rfl
    obtain ⟨further, reached⟩ := inside.add (n := 1) (by omega) (by omega)
    have pos : (c.add 1).pos.toNat = c.pos.toNat + 1 := by
      have := reached.pos
      omega
    have rest := ih further (by
      change c.items.length - (c.add 1).pos.toNat = k
      omega)
    rw [pos] at rest
    rw [List.drop_eq_getElem_cons here]
    refine .step ?_ ?_ rest
    · change c.items.length - c.pos.toNat = (c.items.drop (c.pos.toNat + 1)).length + 1
      rw [List.length_drop]
      omega
    · rw [next, get?, entry?, List.getElem?_eq_getElem here]
      rfl

theorem Walks.remaining_eq (walks : c.Walks xs) : c.remaining = xs.length := by
  cases walks <;> assumption

theorem Walks.walk_eq (walks : c.Walks xs) : c.walk = xs := by
  induction walks with
  | done none_left stops =>
    rw [walk, none_left, walk.go]
  | step left moves rest ih =>
    rw [walk, left, walk.go, moves, ← rest.remaining_eq]
    exact congrArg (_ :: ·) ih

theorem Walks.nth_eq (walks : c.Walks xs) (k : Nat) : (c.nth k).1 = xs[k]? := by
  induction walks generalizing k with
  | done none_left stops => cases k <;> rw [nth, stops] <;> rfl
  | step left moves rest ih =>
    cases k with
    | zero => rw [nth, moves]; rfl
    | succ k =>
      rw [nth, moves]
      exact ih k

end Walking

/-- What a cursor does, said of places as integers. -/
structure Exact (c : Cursor α) : Prop where
  peek : ∀ n x, c.peek n = .ok x ↔ 0 ≤ c.place n ∧ c.items[(c.place n).toNat]? = some x
  fault : ∀ n, c.peek n = .error .outOfBounds ↔
    ¬(0 ≤ c.place n ∧ c.place n < c.items.length)
  add : ∀ n, 0 ≤ c.place n → c.place n ≤ c.items.length → c.Reaches n (c.add n)
  sub : ∀ n, 0 ≤ c.placeBack n → c.placeBack n ≤ c.items.length →
    ((c.sub n).pos.toNat : Int) = c.placeBack n
  sub_neg : ∀ n, c.sub (-n) = c.add n
  distance : ∀ d, d.items = c.items → d.Inside →
    (c.distance d).toInt = c.pos.toNat - d.pos.toNat
  equals : ∀ d, d.items = c.items → (c.equals d = true ↔ c = d)
  compare : ∀ d, c.compare d = Ord.compare c.pos.toNat d.pos.toNat
  walks : c.Walks (c.items.drop c.pos.toNat)
  walk : c.walk = c.items.drop c.pos.toNat
  nth : ∀ k, (c.nth k).1 = c.items[c.pos.toNat + k]?

theorem equals_iff {c d : Cursor α} (same : d.items = c.items) : c.equals d = true ↔ c = d := by
  obtain ⟨items, pos⟩ := c
  obtain ⟨others, mark⟩ := d
  cases same
  simp only [equals, decide_eq_true_eq, mk.injEq, true_and]

theorem Inside.exact {c : Cursor α} (inside : c.Inside) : c.Exact where
  peek := inside.peek_eq_ok_iff
  fault := inside.peek_eq_error_iff
  add _ front stop := (inside.add front stop).2
  sub _ := inside.sub
  sub_neg := c.sub_neg
  distance _ _ there := inside.distance_toInt there
  equals _ := equals_iff
  compare _ := rfl
  walks := inside.walks
  walk := inside.walks.walk_eq
  nth k := by rw [inside.walks.nth_eq, List.getElem?_drop]

end Cursor

namespace WriteCursor

/-- A write cursor stands where a read cursor stands, goes where that goes and meets the same
entries. What it writes at an offset it writes where the read cursor reads. -/
structure Follows (w : WriteCursor α) (c : Cursor α) : Prop where
  pos : w.pos = c.pos
  isEnd : w.isEnd = c.isEnd
  get? : w.get? = c.get?
  get : w.get = c.get
  peek : ∀ n, w.peek n = c.peek n
  add : ∀ n, (w.add n).toCursor = c.add n
  sub : ∀ n, (w.sub n).toCursor = c.sub n
  inc : w.inc.toCursor = c.inc
  dec : w.dec.toCursor = c.dec
  equals : ∀ u : WriteCursor α, w.equals u = c.equals u.toCursor
  compare : ∀ u : WriteCursor α, w.compare u = c.compare u.toCursor
  modifyAt : ∀ n f u, w.modifyAt n f = .ok u ↔
    ∃ x, c.peek n = .ok x ∧ u = { w with items := w.items.set (c.place n).toNat (f x) }
  fault : ∀ n f, w.modifyAt n f = .error .outOfBounds ↔ c.peek n = .error .outOfBounds

theorem modifyAt_eq (w : WriteCursor α) (n : Int64) (f : α → α) :
    w.modifyAt n f = w.toCursor.peek n >>= fun x =>
      .ok { w with items := w.items.set (offset w.pos n).toNat (f x) } := rfl

theorem modifyAt_eq_ok_iff {w : WriteCursor α} (inside : w.toCursor.Inside) (n : Int64)
    (f : α → α) (u : WriteCursor α) : w.modifyAt n f = .ok u ↔ ∃ x, w.toCursor.peek n = .ok x ∧
      u = { w with items := w.items.set (w.toCursor.place n).toNat (f x) } := by
  rw [modifyAt_eq]
  cases read : w.toCursor.peek n with
  | error e => simp only [bind, Except.bind, reduceCtorEq, false_and, exists_false]
  | ok x =>
    have front := ((inside.peek_eq_ok_iff n x).mp read).1
    have led := inside.wrapped n
    have same : (offset w.pos n).toNat = (w.toCursor.place n).toNat := by
      change (offset w.toCursor.pos n).toNat = _
      omega
    simp only [bind, Except.bind, same, Except.ok.injEq, exists_eq_left', eq_comm]

theorem modifyAt_eq_error_iff (w : WriteCursor α) (n : Int64) (f : α → α) :
    w.modifyAt n f = .error .outOfBounds ↔ w.toCursor.peek n = .error .outOfBounds := by
  rw [modifyAt_eq]
  cases w.toCursor.peek n <;> simp only [bind, Except.bind, reduceCtorEq, Except.error.injEq]

theorem follows {w : WriteCursor α} (inside : w.toCursor.Inside) : w.Follows w.toCursor where
  pos := rfl
  isEnd := rfl
  get? := rfl
  get := rfl
  peek _ := rfl
  add _ := rfl
  sub _ := rfl
  inc := rfl
  dec := rfl
  equals _ := rfl
  compare _ := rfl
  modifyAt := modifyAt_eq_ok_iff inside
  fault := w.modifyAt_eq_error_iff

end WriteCursor

/-- In a container that memory may hold, cursors of both kinds reach exactly the places that are
meant, find exactly the entries there, and fault at all other places. -/
theorem cursors_are_exact (c : Cursor α) (inside : c.Inside) :
    c.Exact ∧ ∀ w : WriteCursor α, w.toCursor = c → w.Follows c := by
  refine ⟨inside.exact, ?_⟩
  rintro w rfl
  exact w.follows inside

def sampleCursor : Cursor Nat := ⟨[7, 8, 9], 2⟩

theorem cursors_are_exact_sample : sampleCursor.Inside ∧ sampleCursor.Exact ∧
    WriteCursor.Follows ⟨[7, 8, 9], 2⟩ sampleCursor := by
  have inside : sampleCursor.Inside := ⟨by decide, by decide⟩
  obtain ⟨exact, follows⟩ := cursors_are_exact sampleCursor inside
  exact ⟨inside, exact, follows ⟨[7, 8, 9], 2⟩ rfl⟩

example : sampleCursor.peek Int64.minValue = .error .outOfBounds ∧
    sampleCursor.peek (-Int64.minValue) = .error .outOfBounds ∧
    sampleCursor.peek (-2) = .ok 7 := ⟨rfl, rfl, rfl⟩

end DocTree
