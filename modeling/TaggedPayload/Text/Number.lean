/-!
# Whole numbers in text

Unsigned numbers below a bound, in any radix up to thirty-six. One leading plus sign and leading
zeros are read; a sign alone is not a number. Reading goes from the left and stops at the first
fault, so a number that is already too large is reported before a bad digit further on.
-/

set_option autoImplicit false

namespace TaggedPayload.Text

inductive NumberFault
  | empty
  | badDigit
  | tooLarge
deriving DecidableEq, Repr

namespace NumberFault

def message : NumberFault → String
  | empty => "cannot parse integer from empty string"
  | badDigit => "invalid digit found in string"
  | tooLarge => "number too large to fit in target type"

end NumberFault

/-- Sizes, indices and widths are below this bound. -/
def sizeBound : Nat := UInt64.size

/-- The value of a letter or an ASCII digit, when it is one of the radix. -/
def digitValue? (radix : Nat) (c : Char) : Option Nat :=
  let n := c.toNat
  let v :=
    if 48 ≤ n ∧ n ≤ 57 then n - 48
    else if 97 ≤ n ∧ n ≤ 122 then n - 87
    else if 65 ≤ n ∧ n ≤ 90 then n - 55
    else radix
  if v < radix then some v else none

/-- Reads the remaining digits onto the value read so far. -/
def readDigits (radix bound : Nat) : Nat → List Char → Except NumberFault Nat
  | value, [] => .ok value
  | value, c :: cs =>
    match digitValue? radix c with
    | none => .error .badDigit
    | some d =>
      if value * radix + d < bound then readDigits radix bound (value * radix + d) cs
      else .error .tooLarge

def readUnsigned (radix bound : Nat) : List Char → Except NumberFault Nat
  | [] => .error .empty
  | ['+'] => .error .badDigit
  | '+' :: cs => readDigits radix bound 0 cs
  | c :: cs => readDigits radix bound 0 (c :: cs)

def readSize (cs : List Char) : Except NumberFault Nat :=
  readUnsigned 10 sizeBound cs

/-- The decimal digits of a number, without leading zeros. -/
def decimal (n : Nat) : List Char :=
  Nat.toDigits 10 n

def natText (n : Nat) : String :=
  String.ofList (decimal n)

def intText : Int → String
  | .ofNat n => natText n
  | .negSucc n => String.ofList ('-' :: decimal (n + 1))

end TaggedPayload.Text
