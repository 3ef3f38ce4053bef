import DocTree.Event.Basic
import DocTree.Failure

/-!
The events of a document. References are looked through, halves are widened, tags are left out,
and every sequence and map announces exactly the entries that follow.
-/

namespace DocTree

def Leaf.toEvent : Leaf → Event
  | null => .unit
  | boolean b => .boolean b
  | int64 n => .signed n
  | uint64 n => .unsigned n
  | half h => .float h.toDouble
  | double x => .float x
  | text _ s => .text s
  | bytes _ b => .bytes b
  | emptyObject => .map (some 0) []

namespace Value

mutual

def toEvent : Value → Event
  | leaf _ x => x.toEvent
  | array _ s => .sequence (some s.items.length) (itemEvents s.items)
  | object _ o => .map (some o.members.length) (memberEvents o.members)
  | ref _ v => v.toEvent

def itemEvents : List Value → List Event
  | [] => []
  | v :: vs => v.toEvent :: itemEvents vs

def memberEvents : List (Member Value) → List (Event × Event)
  | [] => []
  | m :: ms => (.text m.key, m.value.toEvent) :: memberEvents ms

end

end Value

def Sequence.toEvent (s : Sequence Value) : Event :=
  .sequence (some s.items.length) (Value.itemEvents s.items)

def objectEvent (ms : List (Member Value)) : Event :=
  .map (some ms.length) (Value.memberEvents ms)

namespace Event

mutual

/-- What a format without byte strings takes: everything up to the first of them. -/
def withoutBytes : Event → Except Error Unit
  | bytes b => .error (.custom s!"{b.length} bytes refused")
  | present e | newtype e => e.withoutBytes
  | sequence _ es => withoutBytesItems es
  | map _ es => withoutBytesEntries es
  | _ => .ok ()

def withoutBytesItems : List Event → Except Error Unit
  | [] => .ok ()
  | e :: es => do
    e.withoutBytes
    withoutBytesItems es

def withoutBytesEntries : List (Event × Event) → Except Error Unit
  | [] => .ok ()
  | (k, e) :: es => do
    k.withoutBytes
    e.withoutBytes
    withoutBytesEntries es

end

end Event

end DocTree
