import TaggedPayload.Text.Number
import TaggedPayload.Text.Shapeless

/-!
# Quoted text

How a name or a character is shown inside a description: between quotes, with the quote, the
backslash, the usual control characters and every character without a shape of its own escaped.
-/

set_option autoImplicit false

namespace TaggedPayload.Text

/-- A backslash escape by code point, in hexadecimal between braces. -/
def codePointEscape (c : Char) : List Char :=
  ['\\', 'u', '\x7b'] ++ Nat.toDigits 16 c.toNat ++ ['\x7d']

def escaped (quote c : Char) : List Char :=
  if c = quote then ['\\', c]
  else if c = '\\' then ['\\', '\\']
  else if c = '\n' then ['\\', 'n']
  else if c = '\r' then ['\\', 'r']
  else if c = '\t' then ['\\', 't']
  else if c.toNat = 0 then ['\\', '0']
  else if isShapeless c then codePointEscape c
  else [c]

def quoted (s : String) : String :=
  String.ofList (['"'] ++ s.toList.flatMap (escaped '"') ++ ['"'])

def quotedChar (c : Char) : String :=
  String.ofList (['\''] ++ escaped '\'' c ++ ['\''])

def bracketed (items : List String) : String :=
  "[" ++ ", ".intercalate items ++ "]"

end TaggedPayload.Text
