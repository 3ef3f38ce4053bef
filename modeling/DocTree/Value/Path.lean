import DocTree.Value.Edit

/-!
Paths into a document: positions in arrays and keys of objects. Reading goes through references
and answers nothing, or null, where a path does not lead. There are two ways to write. `editPath`
enters what is there; the only thing it changes by itself is that an empty object asked for a key
becomes an object. `editSlot` makes what is missing: null asked for a key becomes an object, and
a missing member is made as null. Neither goes through references.
-/

namespace DocTree

inductive Step where
  | index (i : Nat)
  | key (k : String)
  deriving DecidableEq

namespace Value

variable {β : Type}

def get? (v : Value) : Step → Option Value
  | .index i => v.asSequence?.bind fun s => s.items[i]?
  | .key k => v.asObject?.bind fun o => o.get? k

def getPath? (v : Value) : List Step → Option Value
  | [] => some v
  | p :: ps => (v.get? p).bind fun child => child.getPath? ps

def child (v : Value) (p : Step) : Value := (v.get? p).getD null

def readPath (v : Value) (path : List Step) : Value := path.foldl child v

def editChild? (p : Step) (e : Edit Value β) : Edit Value (Option β) := do
  match p, (← Edit.subject).promote with
  | .index i, array t s => Edit.zoom s (array t) (Sequence.editItem? i e)
  | .key k, object t o => Edit.zoom o (object t) (Object.editKey? k e)
  | _, _ => return none

def editPath : List Step → Edit Value β → Edit Value (Option β)
  | [], e => some <$> e
  | p :: ps, e => Option.join <$> editChild? p (editPath ps e)

def editSlot (p : Step) (e : Edit Value β) : Edit Value β := do
  let v ← Edit.subject
  match p with
  | .index i =>
    match v with
    | array t s =>
      if s.length ≤ i then Edit.fault (.indexPastEnd i s.length)
      Edit.zoom s (array t) (Sequence.editItem i e)
    | _ => Edit.fault (.indexIntoKind i v.kind)
  | .key k =>
    let v := if v.kind = .null then emptyObject else v
    match v.promote with
    | object t o =>
      Edit.zoom o (object t) do
        let (pos, _) ← Object.tryEmplace k null
        Object.editAt pos e
    | _ => Edit.fault (.keyIntoKind k v.kind)

/-- Edits what a path leads to after making it, if it can be made. What was made on the way stays
if a later step fails. -/
def editSlots : List Step → Edit Value β → Edit Value β
  | [], e => e
  | p :: ps, e => editSlot p (editSlots ps e)

def write (path : List Step) (x : Value) : Edit Value Unit := editSlots path (assign x)

end Value

end DocTree
