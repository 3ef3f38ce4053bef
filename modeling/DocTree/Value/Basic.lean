import DocTree.InsertionObject.Basic
import DocTree.Number.Order
import DocTree.Sequence.Basic
import DocTree.Tag

/-!
Values: the nodes of a document. Text of up to fourteen bytes is held in the value itself; longer
text and byte strings are payloads that live in a home.

This is the default build: the objects that stand in values ascend by key. The build in which they
keep the order of insertion (`preserve_order`) is left out; objects of that kind stand alone here,
and become values by way of those that ascend.
-/

namespace DocTree

/-- A value without parts. The empty object is a leaf that becomes an object when one is needed. -/
inductive Leaf where
  | null
  | boolean (b : Bool)
  | int64 (n : Int64)
  | uint64 (n : UInt64)
  | half (h : Half)
  | double (x : Double)
  | text (home : Home) (s : String)
  | bytes (home : Home) (b : List UInt8)
  | emptyObject
  deriving DecidableEq, Inhabited

/-- Text of at most this many bytes is held inline. -/
def inlineCapacity : Nat := 14

def isInline (s : String) : Bool := s.utf8ByteSize ≤ inlineCapacity

inductive Value where
  | leaf (tag : Tag) (data : Leaf)
  | array (tag : Tag) (items : Sequence Value)
  | object (tag : Tag) (members : Object Value)
  | ref (tag : Tag) (target : Value)

def Leaf.storage : Leaf → Storage
  | null => .null
  | boolean _ => .boolean
  | int64 _ => .int64
  | uint64 _ => .uint64
  | half _ => .half
  | double _ => .double
  | text _ s => if isInline s then .inlineText else .longText
  | bytes .. => .bytes
  | emptyObject => .emptyObject

theorem Leaf.storage_ne_reference (x : Leaf) : x.storage ≠ .reference := by
  cases x with
  | text home s =>
    rw [storage]
    split <;> exact Storage.noConfusion
  | _ => exact Storage.noConfusion

def Leaf.kind : Leaf → Kind
  | null => .null
  | boolean _ => .boolean
  | int64 _ => .int64
  | uint64 _ => .uint64
  | half _ => .half
  | double _ => .double
  | text .. => .text
  | bytes .. => .bytes
  | emptyObject => .object

/-- Unsigned words below this, two to the sixty-third, are signed words too. -/
def signedLimit : Nat := 0x8000000000000000

namespace Value

def null : Value := leaf .plain .null

instance : Inhabited Value := ⟨null⟩

def tag : Value → Tag
  | leaf t _ | array t _ | object t _ | ref t _ => t

def withTag (t : Tag) : Value → Value
  | leaf _ data => leaf t data
  | array _ items => array t items
  | object _ members => object t members
  | ref _ target => ref t target

def storage : Value → Storage
  | leaf _ data => data.storage
  | array .. => .array
  | object .. => .object
  | ref .. => .reference

/-- A reference stands for its target. -/
def follow : Value → Value
  | ref _ target => target
  | v => v

theorem follow_of_storage {v : Value} (direct : v.storage ≠ .reference) : v.follow = v := by
  cases v with
  | ref => exact absurd rfl direct
  | _ => rfl

/-- The end of a chain of references, however long. Where no reference leads to a reference, as in
all that callers build, this is where one step leads. -/
def resolve : Value → Value
  | ref _ target => target.resolve
  | v => v

def ofBool (b : Bool) : Value := leaf .plain (.boolean b)
def ofInt64 (n : Int64) : Value := leaf .plain (.int64 n)
def ofUInt64 (n : UInt64) : Value := leaf .plain (.uint64 n)
def ofHalf (h : Half) : Value := leaf .plain (.half h)
def ofDouble (x : Double) : Value := leaf .plain (.double x)
def ofText (s : String) : Value := leaf .plain (.text .heap s)
def ofBytes (b : List UInt8) : Value := leaf .plain (.bytes .heap b)
def ofSequence (s : Sequence Value) : Value := array .plain s
def ofObject (o : Object Value) : Value := object .plain o
def emptyObject : Value := leaf .plain .emptyObject

def ofWord (n : UInt64) : Value :=
  if n.toNat < signedLimit then ofInt64 n.toInt64 else ofUInt64 n

/-- A reference to a value. A reference to a reference leads to the original. -/
def constRef (target : Value) : Value := ref .plain target.follow

def ofMembers : List (Member Value) → Value
  | [] => emptyObject
  | ms => ofObject (.ofMembers .heap ms)

/-- An object for an arena. The heap gets the empty object, which takes no room. -/
def objectIn : Home → Value
  | .heap => emptyObject
  | home => ofObject (.empty home)

def repeated (n : Nat) (s : String) : Charging Value := do
  haveRoom (n * s.utf8ByteSize)
  return ofText (if s.isEmpty then s else String.join (List.replicate n s))

/-- A text with its payload in `home`. Inline text has none. -/
def textIn (home : Home) (s : String) : Charging Value := do
  match home with
  | .heap => return ofText s
  | .arena n =>
    if isInline s then return ofText s
    copyTo n s.utf8ByteSize
    return leaf .plain (.text home s)

def bytesIn (home : Home) (b : List UInt8) : Charging Value := do
  match home with
  | .heap => return ofBytes b
  | .arena n =>
    copyTo n b.length
    return leaf .plain (.bytes home b)

end Value

end DocTree
