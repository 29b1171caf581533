import TaggedPayload.Text.Utf8

/-!
# Text read back from its bytes

The bytes of a text are UTF-8 and read as that text. A character takes one to four bytes; its lead
byte tells how many, and admits as second byte just those that rule out overlong forms, surrogates
and code points past the last plane.
-/

set_option autoImplicit false

namespace TaggedPayload.Text

namespace Utf8

theorem toNat_byte (n : Nat) (h : n < 256) : (UInt8.ofNat n).toNat = n :=
  UInt8.toNat_ofNat_of_lt' h

theorem continues_byte (n : Nat) : continues (UInt8.ofNat (n % 64 + 128)) = true := by
  have h := toNat_byte (n % 64 + 128) (by omega)
  simp only [continues, Bool.and_eq_true, decide_eq_true_eq, UInt8.le_iff_toNat_le, h]
  constructor
  · exact Nat.le_add_left _ _
  · show n % 64 + 128 ≤ 191
    omega

theorem low_byte (n : Nat) : low (UInt8.ofNat (n % 64 + 128)) = n % 64 := by
  rw [low, toNat_byte _ (by omega)]
  omega

/-! ## Lead bytes -/

/-- The table of lead bytes in numbers. -/
theorem lead_byte (n : Nat) (h : n < 256) :
    lead? (UInt8.ofNat n) =
      if 194 ≤ n ∧ n ≤ 223 then some (2, 0x80, 0xBF)
      else if n = 224 then some (3, 0xA0, 0xBF)
      else if n = 237 then some (3, 0x80, 0x9F)
      else if 225 ≤ n ∧ n ≤ 239 then some (3, 0x80, 0xBF)
      else if n = 240 then some (4, 0x90, 0xBF)
      else if 241 ≤ n ∧ n ≤ 243 then some (4, 0x80, 0xBF)
      else if n = 244 then some (4, 0x80, 0x8F)
      else none := by
  simp only [lead?, UInt8.le_iff_toNat_le, beq_iff_eq, ← UInt8.toNat_inj, toNat_byte n h,
    Bool.and_eq_true, decide_eq_true_eq, UInt8.reduceToNat]

theorem byte_within (n : Nat) (lo hi : UInt8) (hn : n < 256) (hl : lo.toNat ≤ n)
    (hu : n ≤ hi.toNat) : (decide (lo ≤ UInt8.ofNat n) && decide (UInt8.ofNat n ≤ hi)) = true := by
  simp [UInt8.le_iff_toNat_le, toNat_byte n hn, hl, hu]

theorem byte_not_ascii (n : Nat) (h : n < 256) (hl : 128 ≤ n) : ¬ UInt8.ofNat n < 0x80 := by
  rw [UInt8.lt_iff_toNat_lt, toNat_byte n h]
  exact Nat.not_lt.mpr hl

/-- The lead byte of a character of three bytes admits its second byte: the character is neither
short enough for two bytes nor a surrogate. -/
theorem lead_three (v : Nat) (hl : 2048 ≤ v) (hu : v < 65536) (hs : v < 55296 ∨ 57343 < v) :
    ∃ lo hi, lead? (UInt8.ofNat (v / 4096 % 16 + 224)) = some (3, lo, hi) ∧
      (decide (lo ≤ UInt8.ofNat (v / 64 % 64 + 128)) &&
        decide (UInt8.ofNat (v / 64 % 64 + 128) ≤ hi)) = true := by
  by_cases h0 : v / 4096 % 16 = 0
  · rw [h0]
    exact ⟨0xA0, 0xBF, rfl, byte_within _ _ _ (by omega) (show 160 ≤ _ by omega)
      (show _ ≤ 191 by omega)⟩
  by_cases h13 : v / 4096 % 16 = 13
  · rw [h13]
    exact ⟨0x80, 0x9F, rfl, byte_within _ _ _ (by omega) (show 128 ≤ _ by omega)
      (show _ ≤ 159 by omega)⟩
  · refine ⟨0x80, 0xBF, ?_, byte_within _ _ _ (by omega) (show 128 ≤ _ by omega)
      (show _ ≤ 191 by omega)⟩
    rw [lead_byte _ (by omega), if_neg (by omega), if_neg (by omega), if_neg (by omega),
      if_pos (by omega)]

/-- The lead byte of a character of four bytes admits its second byte: the character is neither
short enough for three bytes nor past the last plane. -/
theorem lead_four (v : Nat) (hl : 65536 ≤ v) (hu : v < 1114112) :
    ∃ lo hi, lead? (UInt8.ofNat (v / 262144 % 8 + 240)) = some (4, lo, hi) ∧
      (decide (lo ≤ UInt8.ofNat (v / 4096 % 64 + 128)) &&
        decide (UInt8.ofNat (v / 4096 % 64 + 128) ≤ hi)) = true := by
  by_cases h0 : v / 262144 % 8 = 0
  · rw [h0]
    exact ⟨0x90, 0xBF, rfl, byte_within _ _ _ (by omega) (show 144 ≤ _ by omega)
      (show _ ≤ 191 by omega)⟩
  by_cases h4 : v / 262144 % 8 = 4
  · rw [h4]
    exact ⟨0x80, 0x8F, rfl, byte_within _ _ _ (by omega) (show 128 ≤ _ by omega)
      (show _ ≤ 143 by omega)⟩
  · refine ⟨0x80, 0xBF, ?_, byte_within _ _ _ (by omega) (show 128 ≤ _ by omega)
      (show _ ≤ 191 by omega)⟩
    rw [lead_byte _ (by omega), if_neg (by omega), if_neg (by omega), if_neg (by omega),
      if_neg (by omega), if_neg (by omega), if_pos (by omega)]

/-! ## One character -/

/-- The bytes of a character are read as that character, whatever follows. -/
theorem decodeFrom_char (index : Nat) (c : Char) (rest : Bytes) :
    decodeFrom index (String.utf8EncodeChar c ++ rest) =
      (decodeFrom (index + (String.utf8EncodeChar c).length) rest).map (c :: ·) := by
  have hc : Char.ofNat c.toNat = c := Char.ofNat_toNat c
  have hv : c.toNat = c.val.toNat := rfl
  have hvalid : c.toNat < 55296 ∨ 57343 < c.toNat ∧ c.toNat < 1114112 := c.valid
  rw [String.utf8EncodeChar, ← hv]
  -- One case for each width; the code point is put together again from its six-bit parts.
  by_cases h1 : c.toNat ≤ 127
  · have hb := toNat_byte c.toNat (by omega)
    have hlt : UInt8.ofNat c.toNat < 0x80 := by
      rw [UInt8.lt_iff_toNat_lt, hb]
      exact Nat.lt_succ_of_le h1
    simp [h1, decodeFrom, hlt, hb, hc]
  rw [if_neg h1]
  by_cases h2 : c.toNat ≤ 2047
  · have hb := toNat_byte (c.toNat / 64 % 32 + 192) (by omega)
    have hlead := lead_byte (c.toNat / 64 % 32 + 192) (by omega)
    rw [if_pos (by omega)] at hlead
    have hlt := byte_not_ascii (c.toNat / 64 % 32 + 192) (by omega) (by omega)
    have hin := byte_within (c.toNat % 64 + 128) 0x80 0xBF (by omega) (show 128 ≤ _ by omega)
      (show _ ≤ 191 by omega)
    have hn : (c.toNat / 64 % 32 + 192) % 32 * 64 + c.toNat % 64 = c.toNat := by omega
    rw [if_pos h2, List.cons_append, decodeFrom]
    simp only [hlt, hlead, hin, hb, List.cons_append, List.nil_append, low_byte, hn, hc]
    rfl
  rw [if_neg h2]
  by_cases h3 : c.toNat ≤ 65535
  · have hb := toNat_byte (c.toNat / 4096 % 16 + 224) (by omega)
    obtain ⟨lo, hi, hlead, hin⟩ := lead_three c.toNat (by omega) (by omega) (by omega)
    have hlt := byte_not_ascii (c.toNat / 4096 % 16 + 224) (by omega) (by omega)
    have hn : ((c.toNat / 4096 % 16 + 224) % 16 * 64 + c.toNat / 64 % 64) * 64 +
        c.toNat % 64 = c.toNat := by omega
    rw [if_pos h3, List.cons_append, decodeFrom]
    simp only [hlt, hlead, hin, hb, List.cons_append, List.nil_append, continues_byte, low_byte,
      hn, hc]
    rfl
  · have hb := toNat_byte (c.toNat / 262144 % 8 + 240) (by omega)
    obtain ⟨lo, hi, hlead, hin⟩ := lead_four c.toNat (by omega) (by omega)
    have hlt := byte_not_ascii (c.toNat / 262144 % 8 + 240) (by omega) (by omega)
    have hn : (((c.toNat / 262144 % 8 + 240) % 8 * 64 + c.toNat / 4096 % 64) * 64 +
        c.toNat / 64 % 64) * 64 + c.toNat % 64 = c.toNat := by omega
    rw [if_neg h3, List.cons_append, decodeFrom]
    simp only [hlt, hlead, hin, hb, List.cons_append, List.nil_append, continues_byte, low_byte,
      hn, hc]
    rfl

/-! ## Whole texts -/

theorem decodeFrom_utf8 (cs : List Char) (index : Nat) : decodeFrom index (utf8 cs) = .ok cs := by
  induction cs generalizing index with
  | nil => rw [utf8, List.flatMap_nil, decodeFrom]
  | cons c cs ih =>
    have hcs : utf8 (c :: cs) = String.utf8EncodeChar c ++ utf8 cs := List.flatMap_cons
    rw [hcs, decodeFrom_char, ih]
    rfl

theorem utf8_injective (cs ds : List Char) (h : utf8 cs = utf8 ds) : cs = ds := by
  have hds := decodeFrom_utf8 ds 0
  rw [← h, decodeFrom_utf8] at hds
  exact Except.ok.inj hds

end Utf8

/-- A text is read back from its bytes. -/
theorem readUtf8_utf8Of (s : String) : readUtf8 (utf8Of s) = .ok s := by
  rw [readUtf8, utf8Of, Utf8.decodeFrom_utf8, Except.map, String.ofList_toList]

end TaggedPayload.Text
