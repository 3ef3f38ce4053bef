import DocTree.Object.Edit
import DocTree.Sequence.Edit
import DocTree.Value.Room

/-!
Editing a value as the container it is. A value of another kind, a reference to a container
included, is an error and stays as it was. The empty object becomes an object of the heap as soon
as its members may change.
-/

namespace DocTree.Value

variable {β : Type}

def onArray (e : Edit (Sequence Value) β) : Edit Value β := do
  match ← Edit.subject with
  | array t s => Edit.zoom s (array t) e
  | _ => Edit.fail .notArray

def promote : Value → Value
  | leaf t .emptyObject => object t {}
  | v => v

def onObject (e : Edit (Object Value) β) : Edit Value β := do
  match (← Edit.subject).promote with
  | object t o => Edit.zoom o (object t) e
  | _ => Edit.fail .notObject

def ownArray? : Value → Option (Sequence Value)
  | array _ s => some s
  | _ => none

/-- The value's own object, which the empty object now gets. -/
def ownObject : Edit Value (Option (Object Value)) := do
  Edit.update promote
  match ← Edit.subject with
  | object _ o => return some o
  | _ => return none

def push (v : Value) : Edit Value Unit := onArray (Sequence.push v)

def insert (pos : Nat) (v : Value) : Edit Value Unit := onArray do
  let s ← Edit.subject
  if s.length < pos then Edit.fail (.outOfRange pos s.length)
  discard (Sequence.insert pos v)

def erase (pos : Nat) : Edit Value Value := onArray do
  let s ← Edit.subject
  if s.length ≤ pos then Edit.fail (.outOfRange pos s.length)
  Sequence.erase pos

def resize (n : Nat) (v : Value) : Edit Value Unit := onArray (Sequence.resize n v)

def insertOrAssign (key : String) (v : Value) : Edit Value Bool :=
  onObject (return (← Object.insertOrAssign key v).2)

def tryEmplace (key : String) (v : Value) : Edit Value Bool :=
  onObject (return (← Object.tryEmplace key v).2)

/-- The empty object has nothing to erase and stays what it is. -/
def eraseKey (key : String) : Edit Value (Option Value) := do
  match ← Edit.subject with
  | leaf _ .emptyObject => return none
  | object .. => onObject (Object.erase key)
  | _ => Edit.fail .notObject

def toObject (v : Value) : Except Error (Object Value) :=
  match v.resolve with
  | object _ o => .ok o
  | leaf _ .emptyObject => .ok {}
  | _ => .error .notObject

def merge (source : Value) : Edit Value Unit := do
  match source.toObject with
  | .ok o => onObject (Object.merge o)
  | .error e => Edit.fail e

def mergeOrUpdate (source : Value) : Edit Value Unit := do
  match source.toObject with
  | .ok o => onObject (Object.mergeOrUpdate o)
  | .error e => Edit.fail e

def editAt (i : Nat) (e : Edit Value β) : Edit Value β := do
  match ← Edit.subject with
  | array t s => Edit.zoom s (array t) (Sequence.editAt i e)
  | object t o => Edit.zoom o (object t) (Object.editAt i e)
  | leaf _ .emptyObject => Edit.fail (.outOfRange i 0)
  | _ => Edit.fail .notArray

/-- The position of a key in the value's own object. The empty object has no positions yet. -/
def findOwn? (v : Value) (key : String) : Option (Object Value × Nat) :=
  match v with
  | object _ o => some (o, o.find key)
  | _ => none

def reserve (additional : Nat) : Edit Value Unit := do
  match ← Edit.subject with
  | array t s => Edit.zoom s (array t) (Sequence.reserve additional)
  | object t o => Edit.zoom o (object t) (Object.reserve additional)
  | leaf _ .emptyObject =>
    if additional = 0 then return
    checkRoom additional
    onObject (Object.reserve additional)
  | _ => return

def clear : Edit Value Unit := do
  match ← Edit.subject with
  | array t s => Edit.zoom s (array t) Sequence.clear
  | object t o => Edit.zoom o (object t) Object.clear
  | _ => return

def take : Edit Value Value := do
  let v ← Edit.subject
  Edit.put null
  return v

def assign (v : Value) : Edit Value Unit := Edit.put v

def setTag (t : Tag) : Edit Value Unit := Edit.update (·.withTag t)

def setTextIn (home : Home) (s : String) : Edit Value Unit := do
  Edit.put (← Edit.orExhausted (textIn home s))

def trySetTextIn (home : Home) (s : String) : Edit Value Unit := do
  Edit.put (← Edit.orRefused (textIn home s))

def trySetBytesIn (home : Home) (b : List UInt8) : Edit Value Unit := do
  Edit.put (← Edit.orRefused (bytesIn home b))

end DocTree.Value
