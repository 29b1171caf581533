/-!
# Byte strings

Buffers, payloads and keys are lists of bytes. Numbers in them are little endian; signed ones are
two's complement.
-/

set_option autoImplicit false

namespace TaggedPayload

abbrev Bytes := List UInt8

namespace Bytes

def toNat : Bytes → Nat
  | [] => 0
  | b :: bs => b.toNat + 256 * toNat bs

/-- The lowest `width` bytes of a number, least significant first. -/
def ofNat : (width : Nat) → Nat → Bytes
  | 0, _ => []
  | w + 1, n => UInt8.ofNat (n % 256) :: ofNat w (n / 256)

/-- How many byte strings there are of a width. -/
def span (width : Nat) : Nat := Nat.pow 256 width

/-- The two's complement reading: the upper half of the range stands for negative numbers. -/
def toInt (bs : Bytes) : Int :=
  let n := toNat bs
  if 2 * n < span bs.length then n else (n : Int) - span bs.length

def ofInt (width : Nat) (i : Int) : Bytes :=
  ofNat width (i % span width).toNat

@[simp] theorem length_ofNat (w n : Nat) : (ofNat w n).length = w := by
  induction w generalizing n with
  | zero => rfl
  | succ w ih => simp [ofNat, ih]

@[simp] theorem length_ofInt (w : Nat) (i : Int) : (ofInt w i).length = w := by
  simp [ofInt]

/-- Lexicographic order, byte by byte; a beginning comes first. -/
def le : Bytes → Bytes → Bool
  | [], _ => true
  | _ :: _, [] => false
  | a :: as, b :: bs => a < b || (a == b && le as bs)

end Bytes

end TaggedPayload
