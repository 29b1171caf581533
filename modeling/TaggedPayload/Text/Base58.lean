import TaggedPayload.Binary.Bytes

/-!
# Base 58

A byte string is a big-endian number in base 256; its text is that number in base 58. Leading zero
bytes do not show in the number and are written as leading ones.
-/

set_option autoImplicit false

namespace TaggedPayload.Text.Base58

/-- The digits of `n`, least significant first and without leading zeros. -/
def digits (base n : Nat) : List Nat :=
  if _h : n = 0 ∨ base < 2 then []
  else n % base :: digits base (n / base)
termination_by n
decreasing_by exact Nat.div_lt_self (by omega) (by omega)

/-- The number that digits stand for, least significant first. -/
def number (base : Nat) : List Nat → Nat
  | [] => 0
  | d :: ds => d + base * number base ds

/-- The digit characters: no zero, no capital I or O, no small l. -/
def alphabet : List Char :=
  ['1', '2', '3', '4', '5', '6', '7', '8', '9',
    'A', 'B', 'C', 'D', 'E', 'F', 'G', 'H', 'J', 'K', 'L', 'M', 'N', 'P', 'Q', 'R', 'S', 'T', 'U',
    'V', 'W', 'X', 'Y', 'Z',
    'a', 'b', 'c', 'd', 'e', 'f', 'g', 'h', 'i', 'j', 'k', 'm', 'n', 'o', 'p', 'q', 'r', 's', 't',
    'u', 'v', 'w', 'x', 'y', 'z']

def digitChar (d : Nat) : Char :=
  alphabet.getD d '1'

def digit? (c : Char) : Option Nat :=
  alphabet.idxOf? c

def encode (bs : Bytes) : List Char :=
  List.replicate (bs.takeWhile (· == 0)).length '1' ++
    (digits 58 (number 256 (bs.reverse.map UInt8.toNat))).reverse.map digitChar

/-- Reads a text of the alphabet's characters; any other character refuses it. -/
def decode (cs : List Char) : Option Bytes :=
  (cs.mapM digit?).map fun ds =>
    List.replicate (ds.takeWhile (· == 0)).length 0 ++
      (digits 256 (number 58 ds.reverse)).reverse.map UInt8.ofNat

end TaggedPayload.Text.Base58
