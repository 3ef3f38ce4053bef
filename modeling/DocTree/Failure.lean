import DocTree.Kind
import DocTree.Number.Text
import DocTree.Text.Quoted

/-!
Everything that can go wrong, by cause. An `Error` is reported to the caller and belongs to a
category. A `Fault` is a misuse that stops the operation. An exhausted arena ends an operation
that has no way to report it.
-/

namespace DocTree

inductive Unexpected where
  | unit
  | boolean (b : Bool)
  | unsigned (n : Nat)
  | signed (n : Int)
  | float (x : Double)
  | char (c : Char)
  | text (s : String)
  | bytes
  | option
  | newtype
  | sequence
  | map
  | variant
  | other (description : String)

def Unexpected.describe : Unexpected → String
  | unit => "null"
  | boolean b => "boolean `" ++ (if b then "true" else "false") ++ "`"
  | unsigned n => "integer `" ++ toString n ++ "`"
  | signed n => "integer `" ++ toString n ++ "`"
  | float x => "floating point `" ++ x.text .message ++ "`"
  | char c => "character `" ++ c.toString ++ "`"
  | text s => "string " ++ Text.quote s
  | bytes => "byte array"
  | option => "Option value"
  | newtype => "newtype struct"
  | sequence => "sequence"
  | map => "map"
  | variant => "enum"
  | other description => description

inductive Category where
  | outOfRange | refusal | type | data
  deriving DecidableEq

def Category.name : Category → String
  | outOfRange => "OutOfRange"
  | refusal => "Alloc"
  | type => "Type"
  | data => "Data"

inductive Error where
  | outOfRange (index size : Nat)
  | refused (bytes : Nat)
  | notArray
  | notObject
  | custom (message : String)
  | invalidType (found : Unexpected) (expected : String)
  | invalidValue (found : Unexpected) (expected : String)

namespace Error

def category : Error → Category
  | outOfRange .. => .outOfRange
  | refused _ => .refusal
  | notArray | notObject => .type
  | custom _ | invalidType .. | invalidValue .. => .data

def message : Error → String
  | outOfRange index size =>
    s!"Invalid array subscript: index {index} is out of range for size {size}"
  | refused bytes => s!"Allocation of {bytes} bytes failed"
  | notArray => "Not an array"
  | notObject => "Not an object"
  | custom message => message
  | invalidType found expected =>
    "invalid type: " ++ found.describe ++ ", expected " ++ expected
  | invalidValue found expected =>
    "invalid value: " ++ found.describe ++ ", expected " ++ expected

def debugText (e : Error) : String :=
  "Error(" ++ Text.quote e.message ++ ", category: " ++ e.category.name ++ ")"

end Error

inductive Fault where
  | indexIntoKind (index : Nat) (kind : Kind)
  | keyIntoKind (key : String) (kind : Kind)
  | indexPastEnd (index size : Nat)
  | rangeStartOverflow
  | rangeEndOverflow
  | rangeReversed (start stop : Nat)
  | rangePastEnd (stop size : Nat)
  | insertPastEnd (position size : Nat)
  | erasePastEnd (position size : Nat)
  | outOfBounds
  | noRoom
  deriving DecidableEq

/-- The words of a fault. An access that is simply out of bounds has none, nor has a container
that asks for too much room. -/
def Fault.message? : Fault → Option String
  | indexIntoKind index kind => some s!"cannot access index {index} of JSON {kind.name}"
  | keyIntoKind key kind =>
    some ("cannot access key " ++ Text.quote key ++ " in JSON " ++ kind.name)
  | indexPastEnd index size => some s!"index {index} out of bounds (len: {size})"
  | rangeStartOverflow => some "range start overflows usize"
  | rangeEndOverflow => some "range end overflows usize"
  | rangeReversed start stop => some s!"range starts at {start} but ends at {stop}"
  | rangePastEnd stop size =>
    some s!"range end {stop} out of range for container of size {size}"
  | insertPastEnd position size =>
    some s!"insertion position {position} out of range for array of size {size}"
  | erasePastEnd position size =>
    some s!"erase position {position} out of range for object of size {size}"
  | outOfBounds | noRoom => none

inductive Failure where
  | error (e : Error)
  | fault (f : Fault)
  | exhausted (bytes : Nat)

end DocTree
