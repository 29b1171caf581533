import TaggedPayload.Decoder.Basic

/-!
# Decoding a buffer whose tag is split off

A decoder treats a split buffer as the payload it came from: it accepts the one when it accepts the
other and both have the same outcome, an event or an error with all that either says. Composites
choose their members by different tests on the two ways, so the tests have to agree first. The
functions that a caller supplies are arbitrary.
-/

set_option autoImplicit false

namespace TaggedPayload

theorem leading_bytes (b : TaggedBuffer) : Tag.leading? b.bytes = some b.tag := by
  have h := b.tag.length_bytes
  simp [Tag.leading?, Tag.ofBytes?, TaggedBuffer.bytes, h]

theorem drop_bytes (b : TaggedBuffer) : b.bytes.drop Tag.width = b.payload := by
  have h := b.tag.length_bytes
  simp [TaggedBuffer.bytes, Tag.width, h]

/-- Only payloads of fewer than eight bytes cannot be split. -/
theorem split_of_length (data : Bytes) (h : 8 ≤ data.length) :
    ∃ b, TaggedBuffer.ofBytes data = .ok b ∧ b.bytes = data := by
  have ht : (data.take 8).length = 8 := by rw [List.length_take, Nat.min_eq_left h]
  have hb : TaggedBuffer.ofBytes data = .ok ⟨⟨data.take 8, ht⟩, data.drop Tag.width⟩ := by
    simp [TaggedBuffer.ofBytes, Tag.leading?, Tag.ofBytes?, h]
  exact ⟨_, hb, TaggedBuffer.bytes_of_ofBytes hb⟩

theorem ofBytes_short (data : Bytes) (h : data.length < 8) :
    TaggedBuffer.ofBytes data = .error (.tooShort 8 data.length) := by
  have hcut : (data.take 8).length ≠ 8 := by
    rw [List.length_take]
    omega
  simp only [TaggedBuffer.ofBytes, Tag.leading?, Tag.ofBytes?, dif_neg hcut, Tag.width]

namespace TaggedDecoder

theorem accepts_bytes (d : TaggedDecoder) (b : TaggedBuffer) :
    d.accepts b.bytes = d.acceptsBuffer b := by
  rw [accepts, leading_bytes, acceptsBuffer]
  rfl

theorem decode_bytes (d : TaggedDecoder) (b : TaggedBuffer) :
    d.decode b.bytes = d.decodeBuffer b := by
  rw [decode, decodeBuffer, accepts_bytes, drop_bytes]

end TaggedDecoder

namespace Decoder

mutual

theorem accepts_bytes (b : TaggedBuffer) : (d : Decoder) → accepts b.bytes d = acceptsBuffer b d
  | function _ => by rw [acceptsBuffer]
  | gated _ => by rw [acceptsBuffer]
  | tagged d => by rw [accepts, acceptsBuffer, d.accepts_bytes]
  | composite _ _ ds => by rw [accepts, acceptsBuffer, anyAccepts_bytes b ds]

theorem anyAccepts_bytes (b : TaggedBuffer) :
    (ds : List Decoder) → anyAccepts b.bytes ds = anyAcceptsBuffer b ds
  | [] => by rw [anyAccepts, anyAcceptsBuffer]
  | d :: ds => by
    rw [anyAccepts, anyAcceptsBuffer, accepts_bytes b d, anyAccepts_bytes b ds]

end

mutual

theorem decode_bytes (b : TaggedBuffer) : (d : Decoder) → decode b.bytes d = decodeBuffer b d
  | function _ => by rw [decodeBuffer]
  | gated _ => by rw [decodeBuffer]
  | tagged d => by rw [decode, decodeBuffer, d.decode_bytes]
  | composite n _ ds => by rw [decode, decodeBuffer, decodeFirst_bytes b n ds]

theorem decodeFirst_bytes (b : TaggedBuffer) (owner : String) :
    (ds : List Decoder) → decodeFirst b.bytes owner ds = decodeFirstBuffer b owner ds
  | [] => by rw [decodeFirst, decodeFirstBuffer]
  | d :: ds => by
    rw [decodeFirst, decodeFirstBuffer, accepts_bytes b d, decode_bytes b d,
      decodeFirst_bytes b owner ds]

end

/-- Every payload of at least eight bytes can be split, and no decoder, however its composites are
nested, tells the split buffer from the payload. -/
theorem split_agrees (d : Decoder) (data : Bytes) (h : 8 ≤ data.length) :
    ∃ b, TaggedBuffer.ofBytes data = .ok b ∧
      acceptsBuffer b d = accepts data d ∧ decodeBuffer b d = decode data d := by
  obtain ⟨b, hb, rfl⟩ := split_of_length data h
  exact ⟨b, hb, (accepts_bytes b d).symm, (decode_bytes b d).symm⟩

/-- A tagged decoder behind an empty composite accepts nine bytes and cannot read the ninth. -/
theorem split_agrees_nested :
    let d := composite "outer" .zero [composite "empty" .zero [],
      tagged ⟨"poisoned", .zero, ⟨List.replicate 8 7, rfl⟩, fun _ => .error "bad byte"⟩]
    let data : Bytes := List.replicate 8 7 ++ [255]
    8 ≤ data.length ∧ decode data d = .error (.failure "poisoned" "bad byte") ∧
      ∃ b, TaggedBuffer.ofBytes data = .ok b ∧
        acceptsBuffer b d = accepts data d ∧ decodeBuffer b d = decode data d :=
  ⟨by decide, rfl, split_agrees _ _ (by decide)⟩

end Decoder

end TaggedPayload
