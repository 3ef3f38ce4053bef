import DocTree.Text.GraphemeExtend
import DocTree.Text.Printable

/-!
Quoted text, as error messages and debug output show it. A character that is not printable, or
that would join the one before it, is written by its code point.
-/

namespace DocTree.Text

def hexDigits (n : Nat) : List Char := Nat.toDigits 16 n

def codePointEscape (c : Char) : List Char :=
  ['\\', 'u', '\x7b'] ++ hexDigits c.toNat ++ ['\x7d']

def escapeChar (c : Char) : List Char :=
  if c = '\x00' then ['\\', '0']
  else if c = '\t' then ['\\', 't']
  else if c = '\r' then ['\\', 'r']
  else if c = '\n' then ['\\', 'n']
  else if c = '"' || c = '\\' then ['\\', c]
  else if '\x20' ≤ c && c ≤ '\x7e' then [c]
  else if joinsPrevious c || !isPrintable c then codePointEscape c
  else [c]

def quote (s : String) : String :=
  String.ofList ('"' :: s.toList.flatMap escapeChar ++ ['"'])

example : quote "a\tb" = "\"a\\tb\"" := by decide
example : quote "\x7f" = "\"\\u\x7b7f\x7d\"" := by decide +kernel

end DocTree.Text
