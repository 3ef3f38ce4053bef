import DocTree.Answer
import DocTree.Value.Edit

namespace DocTree

inductive ValueOp where
  | push (v : Value)
  | insert (pos : Nat) (v : Value)
  | erase (pos : Nat)
  | resize (n : Nat) (v : Value)
  | insertOrAssign (key : String) (v : Value)
  | tryEmplace (key : String) (v : Value)
  | eraseKey (key : String)
  | merge (source : Value)
  | mergeOrUpdate (source : Value)
  | assignAt (pos : Nat) (v : Value)
  | reserve (additional : Nat)
  | clear
  | shrinkToFit
  | take
  | assign (v : Value)
  | setTag (t : Tag)
  | setTextIn (home : Home) (s : String)
  | trySetTextIn (home : Home) (s : String)
  | trySetBytesIn (home : Home) (b : List UInt8)

def ValueOp.run : ValueOp → Edit Value Answer
  | push v => done (Value.push v)
  | insert pos v => done (Value.insert pos v)
  | erase pos => return .value (← Value.erase pos)
  | resize n v => done (Value.resize n v)
  | insertOrAssign key v => return .flag (← Value.insertOrAssign key v)
  | tryEmplace key v => return .flag (← Value.tryEmplace key v)
  | eraseKey key => return .value? (← Value.eraseKey key)
  | merge source => done (Value.merge source)
  | mergeOrUpdate source => done (Value.mergeOrUpdate source)
  | assignAt pos v => done (Value.editAt pos (Value.assign v))
  | reserve additional => done (Value.reserve additional)
  | clear => done Value.clear
  | shrinkToFit => done (Edit.update Value.shrinkToFit)
  | take => return .value (← Value.take)
  | assign v => done (Value.assign v)
  | setTag t => done (Value.setTag t)
  | setTextIn home s => done (Value.setTextIn home s)
  | trySetTextIn home s => done (Value.trySetTextIn home s)
  | trySetBytesIn home b => done (Value.trySetBytesIn home b)

end DocTree
