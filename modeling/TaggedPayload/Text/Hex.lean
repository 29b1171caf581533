import TaggedPayload.Text.Quoted
import TaggedPayload.Text.Utf8

/-!
# Hexadecimal text

Two digits a byte, high half first. Writing uses lower case; reading takes either case. A text may
carry one leading `0x`, which the callers that allow it remove first. Reading looks at the octets
of the text, so positions count octets and a character beyond ASCII is several bad digits.
-/

set_option autoImplicit false

namespace TaggedPayload.Text

inductive HexFault
  | oddLength
  | badDigit (octet : UInt8) (position : Nat)
deriving DecidableEq, Repr

def HexFault.message : HexFault → String
  | oddLength => "Odd number of digits"
  | badDigit o p =>
    s!"Invalid character {quotedChar (Char.ofNat o.toNat)} at position {natText p}"

namespace Hex

def pair (b : UInt8) : List Char :=
  [Nat.digitChar (b.toNat / 16), Nat.digitChar (b.toNat % 16)]

def encode (bs : Bytes) : List Char :=
  bs.flatMap pair

/-- The value of an octet that is a digit of either case. -/
def digit? (o : UInt8) : Option Nat :=
  let n := o.toNat
  if 48 ≤ n ∧ n ≤ 57 then some (n - 48)
  else if 97 ≤ n ∧ n ≤ 102 then some (n - 87)
  else if 65 ≤ n ∧ n ≤ 70 then some (n - 55)
  else none

/-- Reads pairs of digits; `position` octets came before. -/
def decodeFrom (position : Nat) : Bytes → Except HexFault Bytes
  | [] => .ok []
  | [_] => .error .oddLength
  | a :: b :: rest =>
    match digit? a, digit? b with
    | none, _ => .error (.badDigit a position)
    | some _, none => .error (.badDigit b (position + 1))
    | some h, some l =>
      (decodeFrom (position + 2) rest).map (UInt8.ofNat (h * 16 + l) :: ·)

end Hex

def hex (bs : Bytes) : String :=
  String.ofList (Hex.encode bs)

def markedHex (bs : Bytes) : String :=
  String.ofList ('0' :: 'x' :: Hex.encode bs)

/-- The text without one leading `0x`, if it has one. -/
def withoutHexMark : List Char → List Char
  | '0' :: 'x' :: cs => cs
  | cs => cs

/-- Reads hexadecimal text; an odd number of octets is reported before any bad digit. -/
def readHex (cs : List Char) : Except HexFault Bytes :=
  if (utf8 cs).length % 2 = 1 then .error .oddLength
  else Hex.decodeFrom 0 (utf8 cs)

def readMarkedHex (s : String) : Except HexFault Bytes :=
  readHex (withoutHexMark s.toList)

end TaggedPayload.Text
