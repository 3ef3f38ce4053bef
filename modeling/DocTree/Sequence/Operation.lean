import DocTree.Answer
import DocTree.Sequence.Edit
import DocTree.Value.Room

namespace DocTree

inductive SequenceOp where
  | push (v : Value)
  | tryPush (v : Value)
  | pop
  | insert (pos : Nat) (v : Value)
  | insertRange (pos : Nat) (vs : List Value)
  | erase (pos : Nat)
  | eraseRange (low high : Bound)
  | assignAt (pos : Nat) (v : Value)
  | assignItem (pos : Nat) (v : Value)
  | resize (n : Nat) (v : Value)
  | extend (vs : List Value)
  | clear
  | reserve (additional : Nat)
  | shrinkToFit
  | sort
  | reverse

def SequenceOp.run : SequenceOp → Edit (Sequence Value) Answer
  | push v => done (Sequence.push v)
  | tryPush v => done (Sequence.tryPush v)
  | pop => return .value? (← Sequence.pop)
  | insert pos v => return .place (← Sequence.insert pos v)
  | insertRange pos vs => return .place (← Sequence.insertRange pos vs)
  | erase pos => return .value (← Sequence.erase pos)
  | eraseRange low high => done (Sequence.eraseRange low high)
  | assignAt pos v => done (Sequence.editAt pos (Edit.put v))
  | assignItem pos v => done (Sequence.editItem pos (Edit.put v))
  | resize n v => done (Sequence.resize n v)
  | extend vs => done (Sequence.extend vs)
  | clear => done Sequence.clear
  | reserve additional => done (Sequence.reserve additional)
  | shrinkToFit => done (Edit.update Sequence.shrinkToFit)
  | sort => done Sequence.sort
  | reverse => done Sequence.reverse

end DocTree
