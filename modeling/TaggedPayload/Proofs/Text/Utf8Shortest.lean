import TaggedPayload.Proofs.Collecting
import TaggedPayload.Proofs.Text.Utf8Reading

/-!
# Bytes of a text that was read

Bytes that read as text are the bytes of that text: each character is written in one way only. The
ranges of the second byte leave out just what would be another spelling or no character at all.
-/

set_option autoImplicit false

namespace TaggedPayload

namespace Text

namespace Utf8

theorem toNat_char (v : Nat) (h : v < 55296 ∨ 57343 < v ∧ v < 1114112) :
    (Char.ofNat v).val.toNat = v := by
  have hv : v.isValidChar := h
  rw [Char.ofNat, dif_pos hv]
  rfl

theorem byte_eq (b : UInt8) (n : Nat) (h : n = b.toNat) : UInt8.ofNat n = b := by
  rw [h, UInt8.ofNat_toNat]

theorem within_iff (lo hi c : UInt8) :
    (decide (lo ≤ c) && decide (c ≤ hi)) = true ↔ lo.toNat ≤ c.toNat ∧ c.toNat ≤ hi.toNat := by
  simp [UInt8.le_iff_toNat_le]

/-! ## One character of each width -/

theorem char_one (b : UInt8) (h : b < 0x80) :
    String.utf8EncodeChar (Char.ofNat b.toNat) = [b] := by
  have hb : b.toNat < 128 := UInt8.lt_iff_toNat_lt.mp h
  rw [String.utf8EncodeChar, toNat_char _ (by omega), if_pos (by omega), UInt8.ofNat_toNat]

theorem char_two (b c : UInt8) (hb : 194 ≤ b.toNat ∧ b.toNat ≤ 223)
    (hc : 128 ≤ c.toNat ∧ c.toNat ≤ 191) :
    String.utf8EncodeChar (Char.ofNat (b.toNat % 32 * 64 + low c)) = [b, c] := by
  rw [low, String.utf8EncodeChar, toNat_char _ (by omega), if_neg (by omega), if_pos (by omega),
    byte_eq b _ (by omega), byte_eq c _ (by omega)]

theorem char_three (b c d : UInt8) (hb : 224 ≤ b.toNat ∧ b.toNat ≤ 239)
    (hc : 128 ≤ c.toNat ∧ c.toNat ≤ 191) (hd : 128 ≤ d.toNat ∧ d.toNat ≤ 191)
    (hlong : b.toNat = 224 → 160 ≤ c.toNat) (hsurrogate : b.toNat = 237 → c.toNat ≤ 159) :
    String.utf8EncodeChar (Char.ofNat ((b.toNat % 16 * 64 + low c) * 64 + low d)) =
      [b, c, d] := by
  rw [low, low, String.utf8EncodeChar, toNat_char _ (by omega), if_neg (by omega),
    if_neg (by omega), if_pos (by omega), byte_eq b _ (by omega), byte_eq c _ (by omega),
    byte_eq d _ (by omega)]

theorem char_four (b c d e : UInt8) (hb : 240 ≤ b.toNat ∧ b.toNat ≤ 244)
    (hc : 128 ≤ c.toNat ∧ c.toNat ≤ 191) (hd : 128 ≤ d.toNat ∧ d.toNat ≤ 191)
    (he : 128 ≤ e.toNat ∧ e.toNat ≤ 191) (hlong : b.toNat = 240 → 144 ≤ c.toNat)
    (hlast : b.toNat = 244 → c.toNat ≤ 143) :
    String.utf8EncodeChar
        (Char.ofNat (((b.toNat % 8 * 64 + low c) * 64 + low d) * 64 + low e)) =
      [b, c, d, e] := by
  rw [low, low, low, String.utf8EncodeChar, toNat_char _ (by omega), if_neg (by omega),
    if_neg (by omega), if_neg (by omega), byte_eq b _ (by omega), byte_eq c _ (by omega),
    byte_eq d _ (by omega), byte_eq e _ (by omega)]

/-! ## Lead bytes that open a character -/

/-- What a lead byte and the second byte that it admits are, by width. -/
theorem lead_range (b c lo hi : UInt8) (width : Nat) (h : lead? b = some (width, lo, hi))
    (hc : lo.toNat ≤ c.toNat ∧ c.toNat ≤ hi.toNat) :
    (128 ≤ c.toNat ∧ c.toNat ≤ 191) ∧
      ((width = 2 ∧ 194 ≤ b.toNat ∧ b.toNat ≤ 223) ∨
        (width = 3 ∧ (224 ≤ b.toNat ∧ b.toNat ≤ 239) ∧ (b.toNat = 224 → 160 ≤ c.toNat) ∧
          (b.toNat = 237 → c.toNat ≤ 159)) ∨
        (width = 4 ∧ (240 ≤ b.toNat ∧ b.toNat ≤ 244) ∧ (b.toNat = 240 → 144 ≤ c.toNat) ∧
          (b.toNat = 244 → c.toNat ≤ 143))) := by
  have hb := lead_byte b.toNat b.toNat_lt
  rw [UInt8.ofNat_toNat, h] at hb
  -- One case for each row of the table of lead bytes.
  repeat' split at hb
  all_goals cases hb
  all_goals simp only [UInt8.reduceToNat] at hc
  all_goals omega

theorem continues_iff (c : UInt8) : continues c = true ↔ 128 ≤ c.toNat ∧ c.toNat ≤ 191 :=
  within_iff 0x80 0xBF c

/-! ## Whole texts -/

theorem utf8_cons (c : Char) (cs : List Char) (bs rest : Bytes)
    (hc : String.utf8EncodeChar c = bs) (hcs : utf8 cs = rest) : utf8 (c :: cs) = bs ++ rest := by
  rw [← hc, ← hcs]
  exact List.flatMap_cons

theorem utf8_of_decodeFrom (index : Nat) (bs : Bytes) (cs : List Char)
    (h : decodeFrom index bs = .ok cs) : utf8 cs = bs := by
  -- The cases are the branches of the reader; those that refuse the bytes cannot arise.
  fun_induction decodeFrom index bs generalizing cs with
  | case1 =>
    cases h
    rfl
  | case2 index b rest hb ih =>
    obtain ⟨later, hlater, rfl⟩ := map_eq_ok _ _ _ h
    exact utf8_cons _ _ [b] rest (char_one b hb) (ih later hlater)
  | case6 index b hb width lo hi hlead c rest hin hwidth ih =>
    obtain ⟨later, hlater, rfl⟩ := map_eq_ok _ _ _ h
    obtain rfl : width = 2 := by simpa using hwidth
    obtain ⟨hc, htwo | hthree | hfour⟩ :=
      lead_range b c lo hi 2 hlead ((within_iff lo hi c).mp (by simpa using hin))
    · exact utf8_cons _ _ [b, c] rest (char_two b c htwo.2 hc) (ih later hlater)
    · cases hthree.1
    · cases hfour.1
  | case9 index b hb width lo hi hlead c hin hwidth2 d rest hd hwidth ih =>
    obtain ⟨later, hlater, rfl⟩ := map_eq_ok _ _ _ h
    obtain rfl : width = 3 := by simpa using hwidth
    obtain ⟨hc, htwo | ⟨-, hthree⟩ | hfour⟩ :=
      lead_range b c lo hi 3 hlead ((within_iff lo hi c).mp (by simpa using hin))
    · cases htwo.1
    · have hd : 128 ≤ d.toNat ∧ d.toNat ≤ 191 := (continues_iff d).mp (by simpa using hd)
      exact utf8_cons _ _ [b, c, d] rest (char_three b c d hthree.1 hc hd hthree.2.1 hthree.2.2)
        (ih later hlater)
    · cases hfour.1
  | case12 index b hb width lo hi hlead c hin hwidth2 d hd hwidth3 e rest he ih =>
    obtain ⟨later, hlater, rfl⟩ := map_eq_ok _ _ _ h
    obtain ⟨hc, htwo | hthree | ⟨-, hfour⟩⟩ :=
      lead_range b c lo hi width hlead ((within_iff lo hi c).mp (by simpa using hin))
    · exact absurd htwo.1 (by simpa using hwidth2)
    · exact absurd hthree.1 (by simpa using hwidth3)
    · have hd : 128 ≤ d.toNat ∧ d.toNat ≤ 191 := (continues_iff d).mp (by simpa using hd)
      have he : 128 ≤ e.toNat ∧ e.toNat ≤ 191 := (continues_iff e).mp (by simpa using he)
      exact utf8_cons _ _ [b, c, d, e] rest
        (char_four b c d e hfour.1 hc hd he hfour.2.1 hfour.2.2) (ih later hlater)
  | _ => cases h

end Utf8

/-- Only the bytes of a text are read as that text. -/
theorem utf8Of_of_readUtf8 (bs : Bytes) (s : String) (h : readUtf8 bs = .ok s) :
    utf8Of s = bs := by
  rw [readUtf8] at h
  obtain ⟨cs, hcs, rfl⟩ := map_eq_ok _ _ _ h
  rw [utf8Of, String.toList_ofList, Utf8.utf8_of_decodeFrom 0 bs cs hcs]

end Text

end TaggedPayload
