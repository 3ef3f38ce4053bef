import DocTree.Failure
import DocTree.Value.Basic

namespace DocTree

def Leaf.number? : Leaf → Option Number
  | int64 n => some (.signed n)
  | uint64 n => some (.unsigned n)
  | half h => some (.float h.toDouble)
  | double x => some (.float x)
  | _ => none

namespace Value

def kind (v : Value) : Kind :=
  match v.resolve with
  | leaf _ data => data.kind
  | array .. => .array
  | object .. => .object
  | ref .. => .null

def leaf? (v : Value) : Option Leaf :=
  match v.resolve with
  | leaf _ data => some data
  | _ => none

/-- The integer if it fits a signed word. Floats are not converted. -/
def asInt64? (v : Value) : Option Int64 :=
  match v.leaf? with
  | some (.int64 n) => some n
  | some (.uint64 n) => if n.toNat < signedLimit then some n.toInt64 else none
  | _ => none

def asUInt64? (v : Value) : Option UInt64 :=
  match v.leaf? with
  | some (.int64 n) => if 0 ≤ n.toInt then some n.toUInt64 else none
  | some (.uint64 n) => some n
  | _ => none

def asDouble? (v : Value) : Option Double :=
  match v.leaf? with
  | some (.int64 n) => some (.ofInt n.toInt)
  | some (.uint64 n) => some (.ofInt n.toNat)
  | some (.half h) => some h.toDouble
  | some (.double x) => some x
  | _ => none

def asBool? (v : Value) : Option Bool :=
  match v.leaf? with
  | some (.boolean b) => some b
  | _ => none

def asText? (v : Value) : Option String :=
  match v.leaf? with
  | some (.text _ s) => some s
  | _ => none

def asBytes? (v : Value) : Option (List UInt8) :=
  match v.leaf? with
  | some (.bytes _ b) => some b
  | _ => none

def asSequence? (v : Value) : Option (Sequence Value) :=
  match v.resolve with
  | array _ s => some s
  | _ => none

def asObject? (v : Value) : Option (Object Value) :=
  match v.resolve with
  | object _ o => some o
  | leaf _ .emptyObject => some {}
  | _ => none

def number? (v : Value) : Option Number := v.leaf?.bind Leaf.number?

def length (v : Value) : Nat :=
  match v.resolve with
  | array _ s => s.length
  | object _ o => o.length
  | _ => 0

def isEmpty (v : Value) : Bool := v.length = 0

def capacity (v : Value) : Nat :=
  match v.resolve with
  | array _ s => s.capacity
  | object _ o => o.capacity
  | _ => 0

def at? (v : Value) (i : Nat) : Except Error Value :=
  match v.resolve with
  | array _ s => (s.items[i]?.map .ok).getD (.error (.outOfRange i s.length))
  | object _ o => (o.members[i]?.map fun m => .ok m.value).getD (.error (.outOfRange i o.length))
  | leaf _ .emptyObject => .error (.outOfRange i 0)
  | _ => .error .notArray

def containsKey (v : Value) (key : String) : Bool :=
  v.asObject?.any fun o => (o.find? key).isSome

end Value

structure Facts where
  kind : Kind := .null
  int64? : Option Int64 := none
  uint64? : Option UInt64 := none
  double? : Option Double := none
  bool? : Option Bool := none
  text? : Option String := none
  bytes? : Option (List UInt8) := none

namespace Facts

def isBoolean (f : Facts) : Bool := f.kind = .boolean
def isTrue (f : Facts) : Bool := f.bool? = some true
def isFalse (f : Facts) : Bool := f.bool? = some false
def isNull (f : Facts) : Bool := f.kind = .null
def isNumber (f : Facts) : Bool := f.kind.isNumber
def isText (f : Facts) : Bool := f.kind = .text
def isBytes (f : Facts) : Bool := f.kind = .bytes
def isArray (f : Facts) : Bool := f.kind = .array
def isObject (f : Facts) : Bool := f.kind = .object
def isInt64 (f : Facts) : Bool := f.int64?.isSome
def isUInt64 (f : Facts) : Bool := f.uint64?.isSome
def isFloat (f : Facts) : Bool := f.kind = .half || f.kind = .double

def classes (f : Facts) : List String :=
  [("boolean", f.isBoolean), ("true", f.isTrue), ("false", f.isFalse), ("null", f.isNull),
   ("number", f.isNumber), ("str", f.isText), ("bytes", f.isBytes), ("array", f.isArray),
   ("object", f.isObject), ("i64", f.isInt64), ("u64", f.isUInt64), ("f64", f.isFloat)].filterMap
    fun (name, holds) => if holds then some name else none

end Facts

def Value.facts (v : Value) : Facts where
  kind := v.kind
  int64? := v.asInt64?
  uint64? := v.asUInt64?
  double? := v.asDouble?
  bool? := v.asBool?
  text? := v.asText?
  bytes? := v.asBytes?

/-- A value that is not there reads like null in every respect. -/
def Facts.ofOption : Option Value → Facts
  | some v => v.facts
  | none => {}

end DocTree
