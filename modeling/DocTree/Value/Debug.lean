import DocTree.Number.Text
import DocTree.Text.Quoted
import DocTree.Value.Basic

/-!
The debug text of values and containers. Kinds are named, references are not shown, and byte
strings stay on one line.
-/

namespace DocTree

inductive DebugLayout where
  | line
  | indented (depth : Nat)

namespace DebugLayout

def inner : DebugLayout → DebugLayout
  | line => line
  | indented depth => indented (depth + 1)

def indent (depth : Nat) : String := String.ofList (List.replicate (4 * depth) ' ')

def enclose (opening closing : String) (entries : List String) : DebugLayout → String
  | line => opening ++ ", ".intercalate entries ++ closing
  | indented depth =>
    if entries.isEmpty then opening ++ closing
    else
      opening ++ "\n" ++
        String.join (entries.map fun e => indent (depth + 1) ++ e ++ ",\n") ++
        indent depth ++ closing

def list (entries : List String) (layout : DebugLayout) : String :=
  enclose "[" "]" entries layout

def map (entries : List String) (layout : DebugLayout) : String :=
  enclose "\x7b" "\x7d" entries layout

end DebugLayout

def Leaf.debugText : Leaf → String
  | null => "Null"
  | boolean b => "Bool(" ++ (if b then "true" else "false") ++ ")"
  | int64 n => "Number(" ++ toString n.toInt ++ ")"
  | uint64 n => "Number(" ++ toString n.toNat ++ ")"
  | half h => "Half(" ++ h.toDouble.text .debug ++ ")"
  | double x => "Number(" ++ x.text .debug ++ ")"
  | text _ s => "String(" ++ Text.quote s ++ ")"
  | bytes _ b => "Bytes(" ++ DebugLayout.line.list (b.map fun n => toString n.toNat) ++ ")"
  | emptyObject => "Object \x7b\x7d"

namespace Value

mutual

def debugText (layout : DebugLayout) : Value → String
  | leaf _ x => x.debugText
  | array _ s => "Array " ++ layout.list (debugItems layout.inner s.items)
  | object _ o => "Object " ++ layout.map (debugMembers layout.inner o.members)
  | ref _ v => v.debugText layout

def debugItems (layout : DebugLayout) : List Value → List String
  | [] => []
  | v :: vs => v.debugText layout :: debugItems layout vs

def debugMembers (layout : DebugLayout) : List (Member Value) → List String
  | [] => []
  | m :: ms => (Text.quote m.key ++ ": " ++ m.value.debugText layout) :: debugMembers layout ms

end

end Value

def Sequence.debugText (layout : DebugLayout) (s : Sequence Value) : String :=
  layout.list (Value.debugItems layout.inner s.items)

def debugObject (layout : DebugLayout) (ms : List (Member Value)) : String :=
  layout.map (Value.debugMembers layout.inner ms)

end DocTree
