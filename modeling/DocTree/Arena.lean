/-!
Where payloads live: on the heap, where copies share them, or in an arena. The ledger keeps one
account for each arena, and bytes are never given back. Room for more than the memory of a machine
is refused.
-/

namespace DocTree

inductive Home where
  | heap
  | arena (n : Nat)
  deriving DecidableEq, Inhabited

def Home.isHeap (h : Home) : Bool := h = .heap

structure Account where
  used : Nat := 0
  limit : Option Nat := none
  deriving DecidableEq, Inhabited

/-- Byte counts stay below this, two to the sixty-fourth. -/
def byteLimit : Nat := 0x10000000000000000

namespace Account

/-- Whether `bytes` more fit. Nothing always fits; otherwise the sum has to be a 64-bit count
within the limit. -/
def admits (a : Account) (bytes : Nat) : Bool :=
  bytes = 0 || (a.used + bytes < byteLimit && a.limit.all (a.used + bytes ≤ ·))

def charge (a : Account) (bytes : Nat) : Account := { a with used := a.used + bytes }

def debugText (a : Account) : String :=
  let limit := match a.limit with
    | none => "None"
    | some n => s!"Some({n})"
  "Arena \x7b allocated_bytes: " ++ toString a.used ++ ", limit: " ++ limit ++ " \x7d"

end Account

/-- The accounts by arena number. An arena that was never set up is empty and unlimited. -/
abbrev Ledger := List Account

namespace Ledger

def account (l : Ledger) (n : Nat) : Account := l.getD n {}

def update (f : Account → Account) : Ledger → Nat → Ledger
  | [], 0 => [f {}]
  | [], n + 1 => {} :: update f [] n
  | a :: l, 0 => f a :: l
  | a :: l, n + 1 => a :: update f l n

def used (l : Ledger) : Home → Nat
  | .heap => 0
  | .arena n => (l.account n).used

def debugText (l : Ledger) : Home → String
  | .heap => "Allocator::Global"
  | .arena n => (l.account n).debugText

theorem account_update (f : Account → Account) (l : Ledger) (n k : Nat) :
    (update f l n).account k = if n = k then f (l.account k) else l.account k := by
  induction n generalizing l k with
  | zero => cases l <;> cases k <;> simp [update, account]
  | succ n ih =>
    cases l with
    | nil =>
      cases k with
      | zero => simp [update, account]
      | succ k => simpa [update, account] using ih [] k
    | cons a l =>
      cases k with
      | zero => simp [update, account]
      | succ k => simpa [update, account] using ih l k

end Ledger

/-- What memory does not give: a copy of so many bytes into an arena, or room that no memory
has. -/
inductive Refusal where
  | copy (bytes : Nat)
  | room
  deriving DecidableEq

/-- A computation that needs memory and copies payloads into arenas. What was charged before a
refusal stays. -/
abbrev Charging := EStateM Refusal Ledger

def copyTo (n bytes : Nat) : Charging Unit := fun l =>
  if (l.account n).admits bytes then .ok () (l.update (·.charge bytes) n)
  else .error (.copy bytes) l

/-- No memory has room for this many bytes or entries, two to the forty-seventh. -/
def roomLimit : Nat := 0x800000000000

def haveRoom (n : Nat) : Charging Unit := if n < roomLimit then return else throw .room

def Account.withRoom (bytes : Nat) (limit : Option Nat) : Except Refusal Account :=
  if bytes < roomLimit then .ok { limit } else .error .room

end DocTree
