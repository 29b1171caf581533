/-!
# Widths of integers

Integers in payloads take one, two, four, eight or sixteen bytes.
-/

set_option autoImplicit false

namespace TaggedPayload

inductive Width
  | one
  | two
  | four
  | eight
  | sixteen
deriving DecidableEq, Repr

def Width.size : Width → Nat
  | one => 1
  | two => 2
  | four => 4
  | eight => 8
  | sixteen => 16

def Width.bits (w : Width) : Nat := 8 * w.size

end TaggedPayload
