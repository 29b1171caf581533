import TaggedPayload.AccountKey
import TaggedPayload.Text.Number

/-!
# Serialized accounts

An account is stored as key, balance, length of its data, the data, owner, executable flag and rent
epoch. A buffer may be cut anywhere and may declare any length, so each accessor checks its own
range and answers with the zero of its type when the range is not there. Offsets are sizes: a
range whose end is no size is not there either.
-/

set_option autoImplicit false

namespace TaggedPayload

structure Account where
  key : AccountKey
  lamports : Nat
  data : Bytes
  owner : AccountKey
  executable : Bool
  rentEpoch : Nat

def Account.encode (a : Account) : Bytes :=
  a.key.bytes ++ Bytes.ofNat 8 a.lamports ++ Bytes.ofNat 8 a.data.length ++ a.data ++
    a.owner.bytes ++ [if a.executable then 1 else 0] ++ Bytes.ofNat 8 a.rentEpoch

structure AccountBuffer where
  bytes : Bytes

namespace AccountBuffer

/-- The stored size of an account without data. -/
def leastSize : Nat := 89

def dataStart : Nat := 48

/-- The sum of two offsets, when it is a size. -/
def offset? (m n : Nat) : Option Nat :=
  if m + n < Text.sizeBound then some (m + n) else none

/-- `count` bytes from `start`, when the buffer holds them all. -/
def slice? (b : AccountBuffer) (start count : Nat) : Option Bytes :=
  (offset? start count).bind fun stop =>
    if stop ≤ b.bytes.length then some ((b.bytes.drop start).take count) else none

/-- A number of eight bytes, or zero. -/
def numberAt (b : AccountBuffer) (start : Nat) : Nat :=
  ((b.slice? start 8).map Bytes.toNat).getD 0

/-- A key, or the zero key. -/
def keyAt (b : AccountBuffer) (start : Nat) : AccountKey :=
  ((b.slice? start 32).bind AccountKey.ofBytes?).getD .zero

def key (b : AccountBuffer) : AccountKey := b.keyAt 0

def lamports (b : AccountBuffer) : Nat := b.numberAt 32

def declaredLength (b : AccountBuffer) : Nat := b.numberAt 40

def dataEnd? (b : AccountBuffer) : Option Nat :=
  if b.bytes.length < dataStart then none else offset? dataStart b.declaredLength

def data (b : AccountBuffer) : Bytes :=
  (b.dataEnd?.bind fun stop => b.slice? dataStart (stop - dataStart)).getD []

def owner (b : AccountBuffer) : AccountKey :=
  (b.dataEnd?.map b.keyAt).getD .zero

def executable (b : AccountBuffer) : Bool :=
  ((b.dataEnd?.bind (offset? · 32)).bind fun i => b.bytes[i]?).any (· != 0)

def rentEpoch (b : AccountBuffer) : Nat :=
  ((b.dataEnd?.bind (offset? · 33)).map b.numberAt).getD 0

def isComplete (b : AccountBuffer) : Bool :=
  (b.dataEnd?.bind (offset? · 41)).any (· ≤ b.bytes.length)

end AccountBuffer

end TaggedPayload
