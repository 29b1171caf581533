import TaggedPayload.Binary.Bytes
import TaggedPayload.Text.Number

/-!
# UTF-8

Text as bytes and back. Reading takes the shortest form of each code point only, refuses surrogates
and code points past the last plane, and reports where the first bad sequence starts and how many
of its bytes are bad; a sequence that the end of the input cuts off has no such length.
-/

set_option autoImplicit false

namespace TaggedPayload.Text

def utf8 (cs : List Char) : Bytes :=
  cs.flatMap String.utf8EncodeChar

def utf8Of (s : String) : Bytes :=
  utf8 s.toList

structure Utf8Fault where
  /-- How many leading bytes are whole characters. -/
  validUpTo : Nat
  /-- How many bytes the bad sequence has; none when the input ends inside it. -/
  badLength : Option Nat
deriving DecidableEq, Repr

def Utf8Fault.message (f : Utf8Fault) : String :=
  match f.badLength with
  | some k => s!"invalid utf-8 sequence of {natText k} bytes from index {natText f.validUpTo}"
  | none => s!"incomplete utf-8 byte sequence from index {natText f.validUpTo}"

namespace Utf8

/-- Width of the sequence that a lead byte opens, and the range of its second byte. -/
def lead? (b : UInt8) : Option (Nat × UInt8 × UInt8) :=
  if 0xC2 ≤ b && b ≤ 0xDF then some (2, 0x80, 0xBF)
  else if b == 0xE0 then some (3, 0xA0, 0xBF)
  else if b == 0xED then some (3, 0x80, 0x9F)
  else if 0xE1 ≤ b && b ≤ 0xEF then some (3, 0x80, 0xBF)
  else if b == 0xF0 then some (4, 0x90, 0xBF)
  else if 0xF1 ≤ b && b ≤ 0xF3 then some (4, 0x80, 0xBF)
  else if b == 0xF4 then some (4, 0x80, 0x8F)
  else none

def continues (b : UInt8) : Bool :=
  0x80 ≤ b && b ≤ 0xBF

def low (b : UInt8) : Nat :=
  b.toNat % 64

/-- Reads the rest of the input, of which `index` bytes came before. -/
def decodeFrom (index : Nat) : Bytes → Except Utf8Fault (List Char)
  | [] => .ok []
  | b :: r0 =>
    if b < 0x80 then (decodeFrom (index + 1) r0).map (Char.ofNat b.toNat :: ·)
    else
      match lead? b with
      | none => .error ⟨index, some 1⟩
      | some (width, lo, hi) =>
        match r0 with
        | [] => .error ⟨index, none⟩
        | c1 :: r1 =>
          if !(lo ≤ c1 && c1 ≤ hi) then .error ⟨index, some 1⟩
          else if width == 2 then
            (decodeFrom (index + 2) r1).map (Char.ofNat (b.toNat % 32 * 64 + low c1) :: ·)
          else
            match r1 with
            | [] => .error ⟨index, none⟩
            | c2 :: r2 =>
              if !continues c2 then .error ⟨index, some 2⟩
              else if width == 3 then
                (decodeFrom (index + 3) r2).map
                  (Char.ofNat ((b.toNat % 16 * 64 + low c1) * 64 + low c2) :: ·)
              else
                match r2 with
                | [] => .error ⟨index, none⟩
                | c3 :: r3 =>
                  if !continues c3 then .error ⟨index, some 3⟩
                  else
                    (decodeFrom (index + 4) r3).map
                      (Char.ofNat (((b.toNat % 8 * 64 + low c1) * 64 + low c2) * 64 + low c3) :: ·)

end Utf8

def readUtf8 (bs : Bytes) : Except Utf8Fault String :=
  (Utf8.decodeFrom 0 bs).map String.ofList

end TaggedPayload.Text
