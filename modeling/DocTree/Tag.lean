namespace DocTree

inductive Tag where
  | plain | undefined | datetime | epochSecond | epochMilli | epochNano | bigint | bigdec
  | bigfloat | float128 | base16 | base64 | base64Url | uri | clamped | multiDimRowMajor
  | multiDimColumnMajor | ext | id | regex | code
  deriving DecidableEq, Repr, Inhabited

namespace Tag

def all : List Tag :=
  [plain, undefined, datetime, epochSecond, epochMilli, epochNano, bigint, bigdec, bigfloat,
   float128, base16, base64, base64Url, uri, clamped, multiDimRowMajor, multiDimColumnMajor,
   ext, id, regex, code]

def number (t : Tag) : Nat := t.ctorIdx

def ofNumber? (n : Nat) : Option Tag := all[n]?

def name : Tag → String
  | plain => "n/a"
  | undefined => "undefined"
  | datetime => "datetime"
  | epochSecond => "epoch-second"
  | epochMilli => "epoch-milli"
  | epochNano => "epoch-nano"
  | bigint => "bigint"
  | bigdec => "bigdec"
  | bigfloat => "bigfloat"
  | float128 => "float128"
  | base16 => "base16"
  | base64 => "base64"
  | base64Url => "base64url"
  | uri => "uri"
  | clamped => "clamped"
  | multiDimRowMajor => "multi-dim-row-major"
  | multiDimColumnMajor => "multi-dim-column-major"
  | ext => "ext"
  | id => "id"
  | regex => "regex"
  | code => "code"

def ofName? (s : String) : Option Tag := all.find? (·.name = s)

def identifier : Tag → String
  | plain => "None"
  | undefined => "Undefined"
  | datetime => "Datetime"
  | epochSecond => "EpochSecond"
  | epochMilli => "EpochMilli"
  | epochNano => "EpochNano"
  | bigint => "Bigint"
  | bigdec => "Bigdec"
  | bigfloat => "Bigfloat"
  | float128 => "Float128"
  | base16 => "Base16"
  | base64 => "Base64"
  | base64Url => "Base64Url"
  | uri => "Uri"
  | clamped => "Clamped"
  | multiDimRowMajor => "MultiDimRowMajor"
  | multiDimColumnMajor => "MultiDimColumnMajor"
  | ext => "Ext"
  | id => "Id"
  | regex => "Regex"
  | code => "Code"

theorem ofNumber?_number (t : Tag) : ofNumber? t.number = some t := by
  cases t <;> rfl

theorem ofName?_name (t : Tag) : ofName? t.name = some t := by
  cases t <;> decide

end Tag

end DocTree
