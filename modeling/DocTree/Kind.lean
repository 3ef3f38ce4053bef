namespace DocTree

inductive Kind where
  | null | boolean | int64 | uint64 | half | double | text | bytes | array | object
  deriving DecidableEq, Repr, Inhabited

namespace Kind

def code (k : Kind) : Nat := k.ctorIdx

def name : Kind → String
  | null => "null"
  | boolean => "bool"
  | int64 => "int64"
  | uint64 => "uint64"
  | half => "half"
  | double => "double"
  | text => "string"
  | bytes => "byte_string"
  | array => "array"
  | object => "object"

def isNumber : Kind → Bool
  | int64 | uint64 | half | double => true
  | _ => false

end Kind

inductive Storage where
  | null | boolean | int64 | uint64 | emptyObject | double | half | inlineText | reference
  | bytes | object | array | longText
  deriving DecidableEq, Repr, Inhabited

namespace Storage

def all : List Storage :=
  [null, boolean, int64, uint64, emptyObject, double, half, inlineText, reference, bytes, object,
   array, longText]

/-- Stable codes. The gap separates forms that own nothing from those that own a payload. -/
def code : Storage → Nat
  | null => 0
  | boolean => 1
  | int64 => 2
  | uint64 => 3
  | emptyObject => 4
  | double => 5
  | half => 6
  | inlineText => 7
  | reference => 8
  | bytes => 12
  | object => 13
  | array => 14
  | longText => 15

def ofCode? (n : Nat) : Option Storage := all.find? (·.code = n)

def name : Storage → String
  | null => "null"
  | boolean => "bool"
  | int64 => "int64"
  | uint64 => "uint64"
  | emptyObject => "empty_object"
  | double => "double"
  | half => "half"
  | inlineText => "short_string"
  | reference => "const_json_pointer"
  | bytes => "byte_string"
  | object => "object"
  | array => "array"
  | longText => "string"

def identifier : Storage → String
  | null => "Null"
  | boolean => "Boolean"
  | int64 => "Int64"
  | uint64 => "Uint64"
  | emptyObject => "EmptyObject"
  | double => "Float64"
  | half => "HalfFloat"
  | inlineText => "ShortStr"
  | reference => "ConstJsonPointer"
  | bytes => "ByteStr"
  | object => "Object"
  | array => "Array"
  | longText => "LongStr"

def isText : Storage → Bool
  | inlineText | longText => true
  | _ => false

def isTrivial (s : Storage) : Bool := s.code < bytes.code

theorem ofCode?_code (s : Storage) : ofCode? s.code = some s := by
  cases s <;> rfl

end Storage

end DocTree
