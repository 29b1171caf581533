import TaggedPayload.Tag

/-!
# Bytes read back from hexadecimal text

A digit is one octet of text, so the octets of what is written go in pairs, one pair a byte. Reading
turns each pair back into its byte, wherever in the text it stands.
-/

set_option autoImplicit false

namespace TaggedPayload

namespace Text

namespace Hex

def octet (d : Nat) : UInt8 :=
  UInt8.ofNat (Nat.digitChar d).toNat

def octets (b : UInt8) : Bytes :=
  [octet (b.toNat / 16), octet (b.toNat % 16)]

theorem utf8_digitChar : ∀ d < 16, String.utf8EncodeChar (Nat.digitChar d) = [octet d] := by
  decide

theorem digit?_octet : ∀ d < 16, digit? (octet d) = some d := by
  decide

theorem halves (b : UInt8) :
    b.toNat / 16 < 16 ∧ b.toNat % 16 < 16 ∧ b.toNat / 16 * 16 + b.toNat % 16 = b.toNat := by
  have hb := b.toNat_lt
  omega

theorem utf8_pair (b : UInt8) : utf8 (pair b) = octets b := by
  obtain ⟨hhigh, hlow, -⟩ := halves b
  simp [utf8, pair, octets, utf8_digitChar _ hhigh, utf8_digitChar _ hlow]

theorem utf8_encode (bs : Bytes) : utf8 (encode bs) = bs.flatMap octets := by
  rw [utf8, encode, List.flatMap_assoc]
  congr 1
  funext b
  exact utf8_pair b

theorem length_octets (bs : Bytes) : (bs.flatMap octets).length = 2 * bs.length := by
  induction bs with
  | nil => rfl
  | cons b bs ih =>
    simp only [List.flatMap_cons, List.length_append, octets, List.length_cons, List.length_nil, ih]
    omega

theorem decodeFrom_octets (position : Nat) (bs : Bytes) :
    decodeFrom position (bs.flatMap octets) = .ok bs := by
  induction bs generalizing position with
  | nil => rfl
  | cons b bs ih =>
    obtain ⟨hhigh, hlow, hb⟩ := halves b
    simp [octets, decodeFrom, digit?_octet _ hhigh, digit?_octet _ hlow, ih, hb, Except.map]

end Hex

theorem readHex_encode (bs : Bytes) : readHex (Hex.encode bs) = .ok bs := by
  have heven : 2 * bs.length % 2 ≠ 1 := by omega
  rw [readHex, Hex.utf8_encode, Hex.length_octets, if_neg heven, Hex.decodeFrom_octets]

theorem readMarkedHex_markedHex (bs : Bytes) : readMarkedHex (markedHex bs) = .ok bs := by
  rw [readMarkedHex, markedHex, String.toList_ofList, withoutHexMark, readHex_encode]

end Text

/-- A tag is read back from its text. -/
theorem Tag.ofText?_text (t : Tag) : ofText? t.text = some t := by
  rw [ofText?, text, Text.readMarkedHex_markedHex]
  exact dif_pos t.length_bytes

end TaggedPayload
