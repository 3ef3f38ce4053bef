import DocTree.Event.Basic
import DocTree.Failure

/-!
Reading events back. Reading stops at the first event that fails, a key before its value, and the
first of equal keys stays.
-/

namespace DocTree

namespace Event

def refuse (expected : String) : Event → Error
  | unit => .invalidType .unit expected
  | boolean b => .invalidType (.boolean b) expected
  | signed n => .invalidType (.signed n.toInt) expected
  | unsigned n => .invalidType (.unsigned n.toNat) expected
  | wideSigned n => .invalidType (.other ("integer `" ++ toString n ++ "` as i128")) expected
  | wideUnsigned n => .invalidType (.other ("integer `" ++ toString n ++ "` as u128")) expected
  | float x => .invalidType (.float x) expected
  | text s => .invalidType (.text s) expected
  | bytes _ => .invalidType .bytes expected
  | absent => .invalidType .option expected
  | present _ => .invalidType .option expected
  | newtype _ => .invalidType .newtype expected
  | variant _ => .invalidType .variant expected
  | sequence .. => .invalidType .sequence expected
  | map .. => .invalidType .map expected
  | failure message => .custom message

/-- A key: text, or bytes that are text in UTF-8. -/
def readKey : Event → Except Error String
  | text s => .ok s
  | bytes b =>
    match String.fromUTF8? ⟨b.toArray⟩ with
    | some s => .ok s
    | none => .error (.invalidValue .bytes "a string")
  | e => .error (e.refuse "a string")

mutual

def read : Event → Except Error Value
  | unit | absent => .ok .null
  | boolean b => .ok (.ofBool b)
  | signed n => .ok (.ofInt64 n)
  | unsigned n => .ok (.ofWord n)
  | float x => .ok (.ofDouble x)
  | text s => .ok (.ofText s)
  | bytes b => .ok (.ofBytes b)
  | present e => e.read
  | sequence _ es => do return .ofSequence (.ofList (← readItems es))
  | map _ es => do return .ofMembers (← readEntries es)
  | e => .error (e.refuse "any valid JSON value")

def readItems : List Event → Except Error (List Value)
  | [] => .ok []
  | e :: es => do return (← e.read) :: (← readItems es)

def readEntries : List (Event × Event) → Except Error (List (Member Value))
  | [] => .ok []
  | (k, e) :: es => do return ⟨← k.readKey, ← e.read⟩ :: (← readEntries es)

end

def readSequence : Event → Except Error (Sequence Value)
  | sequence _ es => do return .ofList (← readItems es)
  | e => .error (e.refuse "a JSON array")

def readObject : Event → Except Error (Object Value)
  | map _ es => do return .ofMembers .heap (← readEntries es)
  | e => .error (e.refuse "a JSON object")

def readInsertionObject : Event → Except Error (InsertionObject Value)
  | map _ es => do return .ofMembers .heap (← readEntries es)
  | e => .error (e.refuse "a JSON object")

end Event

end DocTree
