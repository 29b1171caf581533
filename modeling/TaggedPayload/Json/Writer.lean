import TaggedPayload.Json.Tree

/-!
# Writing JSON

Two layouts: compact, without any blank, and pretty, with two spaces a level, one item a line and
nothing between the brackets of an empty container. Strings escape the quote, the backslash and the
control characters, and nothing else.
-/

set_option autoImplicit false

namespace TaggedPayload.Json

def escape (c : Char) : List Char :=
  if c = '"' then ['\\', '"']
  else if c = '\\' then ['\\', '\\']
  else if c = '\x08' then ['\\', 'b']
  else if c = '\x0c' then ['\\', 'f']
  else if c = '\n' then ['\\', 'n']
  else if c = '\r' then ['\\', 'r']
  else if c = '\t' then ['\\', 't']
  else if c.toNat < 0x20 then
    ['\\', 'u', '0', '0', Nat.digitChar (c.toNat / 16), Nat.digitChar (c.toNat % 16)]
  else [c]

def writeString (s : String) : List Char :=
  '"' :: (s.toList.flatMap escape ++ ['"'])

def writeInteger (negative : Bool) (magnitude : Nat) : List Char :=
  if negative then '-' :: Text.decimal magnitude else Text.decimal magnitude

mutual

def compact : Json → List Char
  | null => "null".toList
  | bool true => "true".toList
  | bool false => "false".toList
  | integer neg n => writeInteger neg n
  | fraction literal => literal.toList
  | string s => writeString s
  | array [] => ['[', ']']
  | array (x :: xs) => '[' :: (compact x ++ compactItems xs)
  | object [] => ['\x7b', '\x7d']
  | object ((k, x) :: ms) => '\x7b' :: (writeString k ++ ':' :: (compact x ++ compactMembers ms))
  | broken part => compact part

/-- The items after the first, and the closing bracket. -/
def compactItems : List Json → List Char
  | [] => [']']
  | x :: xs => ',' :: (compact x ++ compactItems xs)

def compactMembers : List (String × Json) → List Char
  | [] => ['\x7d']
  | (k, x) :: ms => ',' :: (writeString k ++ ':' :: (compact x ++ compactMembers ms))

end

def newline (level : Nat) : List Char :=
  '\n' :: List.replicate (2 * level) ' '

mutual

def pretty (level : Nat) : Json → List Char
  | null => "null".toList
  | bool true => "true".toList
  | bool false => "false".toList
  | integer neg n => writeInteger neg n
  | fraction literal => literal.toList
  | string s => writeString s
  | array [] => ['[', ']']
  | array (x :: xs) =>
    '[' :: (newline (level + 1) ++ pretty (level + 1) x ++ prettyItems level xs)
  | object [] => ['\x7b', '\x7d']
  | object ((k, x) :: ms) =>
    '\x7b' :: (newline (level + 1) ++ writeString k ++ ':' :: ' ' ::
      (pretty (level + 1) x ++ prettyMembers level ms))
  | broken part => pretty level part

def prettyItems (level : Nat) : List Json → List Char
  | [] => newline level ++ [']']
  | x :: xs => ',' :: (newline (level + 1) ++ pretty (level + 1) x ++ prettyItems level xs)

def prettyMembers (level : Nat) : List (String × Json) → List Char
  | [] => newline level ++ ['\x7d']
  | (k, x) :: ms =>
    ',' :: (newline (level + 1) ++ writeString k ++ ':' :: ' ' ::
      (pretty (level + 1) x ++ prettyMembers level ms))

end

def text (j : Json) : String :=
  String.ofList (compact j)

def prettyText (j : Json) : String :=
  String.ofList (pretty 0 j)

end TaggedPayload.Json
