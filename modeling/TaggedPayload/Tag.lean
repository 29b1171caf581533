import TaggedPayload.Binary.Sha256
import TaggedPayload.Text.Hex

/-!
# Tags

Every tagged payload starts with a tag of eight bytes. A name is turned into a tag by hashing it
behind the namespace of its kind. The text of a tag is sixteen hexadecimal digits behind `0x`; as a
number, a tag is read little endian, so equal numbers mean equal tags.
-/

set_option autoImplicit false

namespace TaggedPayload

structure Tag where
  bytes : Bytes
  length_bytes : bytes.length = 8
deriving DecidableEq

namespace Tag

def width : Nat := 8

theorem ext {s t : Tag} (h : s.bytes = t.bytes) : s = t := by
  cases s; cases t; cases h; rfl

def ofBytes? (bs : Bytes) : Option Tag :=
  if h : bs.length = 8 then some ⟨bs, h⟩ else none

/-- The tag that a payload starts with; a payload of fewer than eight bytes has none. -/
def leading? (data : Bytes) : Option Tag :=
  ofBytes? (data.take 8)

def hashed (space name : String) : Tag where
  bytes := (Sha256.digest (Text.utf8Of space ++ 58 :: Text.utf8Of name)).take 8
  length_bytes := by simp [Sha256.length_digest]

def ofEvent (name : String) : Tag := hashed "event" name

def ofAccount (name : String) : Tag := hashed "account" name

def ofInstruction (name : String) : Tag := hashed "global" name

def toNat (t : Tag) : Nat :=
  Bytes.toNat t.bytes

def text (t : Tag) : String :=
  Text.markedHex t.bytes

/-- Reads sixteen digits of either case, with or without `0x`. -/
def ofText? (s : String) : Option Tag :=
  match Text.readMarkedHex s with
  | .ok bs => ofBytes? bs
  | .error _ => none

def sorted (ts : List Tag) : List Tag :=
  ts.mergeSort fun s t => Bytes.le s.bytes t.bytes

instance : Hashable Tag where
  hash t := hash t.toNat

end Tag

end TaggedPayload
