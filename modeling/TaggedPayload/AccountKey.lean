import TaggedPayload.Text.Base58

/-!
# Account keys

Accounts and programs are named by thirty-two bytes, written in base 58. The zero key stands for
any program.
-/

set_option autoImplicit false

namespace TaggedPayload

structure AccountKey where
  bytes : Bytes
  length_bytes : bytes.length = 32
deriving DecidableEq

structure KeyFault where
  text : String
deriving DecidableEq, Repr

def KeyFault.message (f : KeyFault) : String :=
  s!"Invalid program id '{f.text}'"

namespace AccountKey

def width : Nat := 32

theorem ext {j k : AccountKey} (h : j.bytes = k.bytes) : j = k := by
  cases j; cases k; cases h; rfl

def ofBytes? (bs : Bytes) : Option AccountKey :=
  if h : bs.length = 32 then some ⟨bs, h⟩ else none

/-- The key that stands for any program. -/
def zero : AccountKey :=
  ⟨List.replicate 32 0, List.length_replicate⟩

instance : Inhabited AccountKey := ⟨zero⟩

def isZero (k : AccountKey) : Bool :=
  k == zero

def text (k : AccountKey) : String :=
  String.ofList (Text.Base58.encode k.bytes)

def ofText (s : String) : Except KeyFault AccountKey :=
  match (Text.Base58.decode s.toList).bind ofBytes? with
  | some k => .ok k
  | none => .error ⟨s⟩

def sorted (ks : List AccountKey) : List AccountKey :=
  ks.mergeSort fun j k => Bytes.le j.bytes k.bytes

end AccountKey

end TaggedPayload
