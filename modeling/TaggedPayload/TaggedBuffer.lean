import TaggedPayload.DecodeError

/-!
# Tagged buffers

A payload split into its tag and what follows it. Splitting loses nothing: the bytes of a tagged
buffer are the payload it came from.
-/

set_option autoImplicit false

namespace TaggedPayload

structure TaggedBuffer where
  tag : Tag
  payload : Bytes
deriving DecidableEq

namespace TaggedBuffer

def bytes (b : TaggedBuffer) : Bytes :=
  b.tag.bytes ++ b.payload

def ofBytes (data : Bytes) : Except DecodeError TaggedBuffer :=
  match Tag.leading? data with
  | some t => .ok ⟨t, data.drop Tag.width⟩
  | none => .error (.tooShort Tag.width data.length)

theorem ofBytes_bytes (b : TaggedBuffer) : ofBytes b.bytes = .ok b := by
  have h := b.tag.length_bytes
  simp [ofBytes, bytes, Tag.leading?, Tag.ofBytes?, Tag.width, h]

theorem bytes_of_ofBytes {data : Bytes} {b : TaggedBuffer} (h : ofBytes data = .ok b) :
    b.bytes = data := by
  unfold ofBytes Tag.leading? Tag.ofBytes? at h
  split at h
  · next t ht =>
    split at ht
    · cases ht; cases h; exact List.take_append_drop 8 data
    · cases ht
  · cases h

end TaggedBuffer

end TaggedPayload
