import TaggedPayload.Proofs.Text.HexReading
import TaggedPayload.Proofs.Text.Utf8Shortest

/-!
# Texts that are hexadecimal

A hexadecimal text is digits of either case, two a byte, behind one mark or none. Reading goes by
octets and still takes just these texts: a digit is one octet, and no octet of a character beyond
ASCII is a digit. What is written for the bytes that were read is the digits in lower case.
-/

set_option autoImplicit false

namespace TaggedPayload.Text

namespace Hex

/-- The character is the digit of a value below sixteen, in lower or in upper case. -/
def IsDigit (c : Char) (d : Nat) : Prop :=
  d < 16 ∧ (c = Nat.digitChar d ∨ c = (Nat.digitChar d).toUpper)

instance (c : Char) (d : Nat) : Decidable (IsDigit c d) :=
  inferInstanceAs (Decidable (_ ∧ _))

/-- The digits stand for the bytes, two a byte with the high half first. -/
inductive Spells : List Char → Bytes → Prop
  | nil : Spells [] []
  | cons {a b : Char} {high low : Nat} {ds : List Char} {bs : Bytes} (ha : IsDigit a high)
      (hb : IsDigit b low) (hds : Spells ds bs) :
      Spells (a :: b :: ds) (UInt8.ofNat (high * 16 + low) :: bs)

/-! ## One digit -/

theorem not_isDigit_x : ∀ d, ¬IsDigit 'x' d := by
  have htable : ∀ d < 16, ¬IsDigit 'x' d := by decide
  exact fun d h => htable d h.1 h

theorem IsDigit.toLower {c : Char} {d : Nat} (h : IsDigit c d) : c.toLower = Nat.digitChar d := by
  have htable : ∀ d < 16,
      (Nat.digitChar d).toLower = Nat.digitChar d ∧
        (Nat.digitChar d).toUpper.toLower = Nat.digitChar d := by
    decide
  obtain ⟨hd, rfl | rfl⟩ := h
  · exact (htable d hd).1
  · exact (htable d hd).2

/-- A digit is one octet, and read as its value. -/
theorem IsDigit.octet {c : Char} {d : Nat} (h : IsDigit c d) :
    ∃ o, String.utf8EncodeChar c = [o] ∧ digit? o = some d := by
  have hcapital : ∀ d < 16,
      (String.utf8EncodeChar (Nat.digitChar d).toUpper).map digit? = [some d] := by
    decide
  obtain ⟨hd, rfl | rfl⟩ := h
  · exact ⟨Hex.octet d, utf8_digitChar d hd, digit?_octet d hd⟩
  · exact List.map_eq_singleton_iff.mp (hcapital d hd)

theorem digit?_ascii (o : UInt8) (d : Nat) (h : digit? o = some d) : o.toNat < 128 := by
  simp only [digit?] at h
  split at h
  · omega
  split at h
  · omega
  split at h
  · omega
  · cases h

/-- An octet that is read as a digit is that digit, and no part of another character. -/
theorem isDigit_of_octet (o : UInt8) (d : Nat) (h : digit? o = some d) :
    IsDigit (Char.ofNat o.toNat) d ∧ String.utf8EncodeChar (Char.ofNat o.toNat) = [o] := by
  have htable : ∀ n < 128, ∀ d ∈ digit? (UInt8.ofNat n), IsDigit (Char.ofNat n) d := by
    decide +kernel
  have hascii := digit?_ascii o d h
  constructor
  · apply htable o.toNat hascii
    rwa [UInt8.ofNat_toNat]
  · exact Utf8.char_one o (UInt8.lt_iff_toNat_lt.mpr hascii)

/-! ## Digits of bytes -/

theorem Spells.length {ds : List Char} {bs : Bytes} (h : Spells ds bs) :
    ds.length = 2 * bs.length := by
  induction h with
  | nil => rfl
  | cons _ _ _ ih =>
    simp only [List.length_cons, ih]
    omega

theorem Spells.isDigit {ds : List Char} {bs : Bytes} (h : Spells ds bs) :
    ∀ c ∈ ds, ∃ d, IsDigit c d := by
  induction h with
  | nil => simp
  | cons ha hb _ ih =>
    rw [List.forall_mem_cons, List.forall_mem_cons]
    exact ⟨⟨_, ha⟩, ⟨_, hb⟩, ih⟩

theorem exists_spells : ∀ ds : List Char, ds.length % 2 = 0 → (∀ c ∈ ds, ∃ d, IsDigit c d) →
    ∃ bs, Spells ds bs
  | [], _, _ => ⟨[], .nil⟩
  | [_], heven, _ => by cases heven
  | a :: b :: ds, heven, hdigits => by
    rw [List.forall_mem_cons, List.forall_mem_cons] at hdigits
    obtain ⟨⟨high, ha⟩, ⟨low, hb⟩, hdigits⟩ := hdigits
    have heven : ds.length % 2 = 0 := by
      simp only [List.length_cons] at heven
      omega
    obtain ⟨bs, hds⟩ := exists_spells ds heven hdigits
    exact ⟨_, .cons ha hb hds⟩

theorem exists_spells_iff (ds : List Char) :
    (∃ bs, Spells ds bs) ↔ (∀ c ∈ ds, ∃ d, IsDigit c d) ∧ ds.length % 2 = 0 := by
  constructor
  · rintro ⟨bs, h⟩
    have hlength := h.length
    exact ⟨h.isDigit, by omega⟩
  · rintro ⟨hdigits, heven⟩
    exact exists_spells ds heven hdigits

theorem pair_halves (high low : Nat) (hhigh : high < 16) (hlow : low < 16) :
    pair (UInt8.ofNat (high * 16 + low)) = [Nat.digitChar high, Nat.digitChar low] := by
  have hbyte : (UInt8.ofNat (high * 16 + low)).toNat = high * 16 + low :=
    UInt8.toNat_ofNat_of_lt' (show high * 16 + low < 256 by omega)
  have hdiv : (high * 16 + low) / 16 = high := by omega
  have hmod : (high * 16 + low) % 16 = low := by omega
  rw [pair, hbyte, hdiv, hmod]

theorem Spells.lowered {ds : List Char} {bs : Bytes} (h : Spells ds bs) :
    encode bs = ds.map Char.toLower := by
  induction h with
  | nil => rfl
  | @cons a b high low ds bs ha hb _ ih =>
    have hpair : encode (UInt8.ofNat (high * 16 + low) :: bs) =
        pair (UInt8.ofNat (high * 16 + low)) ++ encode bs := List.flatMap_cons
    rw [hpair, ih, pair_halves high low ha.1 hb.1, ← ha.toLower, ← hb.toLower]
    rfl

/-! ## Reading -/

theorem utf8_digits (a b : Char) (high low : Nat) (ds : List Char) (ha : IsDigit a high)
    (hb : IsDigit b low) :
    ∃ o p, utf8 (a :: b :: ds) = o :: p :: utf8 ds ∧ digit? o = some high ∧ digit? p = some low := by
  obtain ⟨o, ho, hhigh⟩ := ha.octet
  obtain ⟨p, hp, hlow⟩ := hb.octet
  exact ⟨o, p, Utf8.utf8_cons _ _ [o] _ ho (Utf8.utf8_cons _ _ [p] _ hp rfl), hhigh, hlow⟩

theorem decodeFrom_spells (position : Nat) (ds : List Char) (bs : Bytes) (h : Spells ds bs) :
    decodeFrom position (utf8 ds) = .ok bs := by
  induction h generalizing position with
  | nil => rfl
  | @cons a b high low ds bs ha hb _ ih =>
    obtain ⟨o, p, hutf8, hhigh, hlow⟩ := utf8_digits a b high low ds ha hb
    simp [hutf8, decodeFrom, hhigh, hlow, ih, Except.map]

theorem spells_of_decodeFrom (position : Nat) (os bs : Bytes)
    (h : decodeFrom position os = .ok bs) : ∃ ds, utf8 ds = os ∧ Spells ds bs := by
  -- Only the branch for two digits goes on; the others refuse the octets or end.
  fun_induction decodeFrom position os generalizing bs with
  | case1 =>
    cases h
    exact ⟨[], rfl, .nil⟩
  | case5 position a b rest high low hlow hhigh ih =>
    obtain ⟨later, hlater, rfl⟩ := map_eq_ok _ _ _ h
    obtain ⟨ds, rfl, hds⟩ := ih later hlater
    obtain ⟨ha, hoa⟩ := isDigit_of_octet a _ hhigh
    obtain ⟨hb, hob⟩ := isDigit_of_octet b _ hlow
    exact ⟨_, Utf8.utf8_cons _ _ [a] _ hoa (Utf8.utf8_cons _ _ [b] _ hob rfl), .cons ha hb hds⟩
  | _ => cases h

theorem decodeFrom_ok_iff (position : Nat) (cs : List Char) (bs : Bytes) :
    decodeFrom position (utf8 cs) = .ok bs ↔ Spells cs bs := by
  constructor
  · intro h
    obtain ⟨ds, hds, hspells⟩ := spells_of_decodeFrom position _ bs h
    rwa [← Utf8.utf8_injective ds cs hds]
  · exact decodeFrom_spells position cs bs

theorem Spells.length_utf8 {ds : List Char} {bs : Bytes} (h : Spells ds bs) :
    (utf8 ds).length = 2 * bs.length := by
  induction h with
  | nil => rfl
  | @cons a b high low ds bs ha hb _ ih =>
    obtain ⟨o, p, hutf8, -⟩ := utf8_digits a b high low ds ha hb
    simp only [hutf8, List.length_cons, ih]
    omega

end Hex

theorem readHex_ok_iff (cs : List Char) (bs : Bytes) :
    readHex cs = .ok bs ↔ Hex.Spells cs bs := by
  rw [← Hex.decodeFrom_ok_iff 0, readHex]
  split
  next hodd =>
    constructor
    · intro h
      cases h
    · intro h
      have heven := ((Hex.decodeFrom_ok_iff 0 cs bs).mp h).length_utf8
      omega
  next => rfl

/-- The text is these characters, behind one mark or none. -/
def Bears (s : String) (cs : List Char) : Prop :=
  s.toList = cs ∨ s.toList = '0' :: 'x' :: cs

theorem withoutHexMark_eq_iff (s : String) (ds : List Char) (hx : 'x' ∉ ds) :
    withoutHexMark s.toList = ds ↔ Bears s ds := by
  rw [Bears, withoutHexMark.eq_def]
  split
  next cs hs =>
    have hmark : s.toList ≠ ds := by
      rintro rfl
      exact hx (by simp [hs])
    simp [hs, hs ▸ hmark]
  next hs =>
    have hmark : s.toList ≠ '0' :: 'x' :: ds := fun h => hs ds h
    simp [hmark]

theorem Hex.Spells.no_mark {ds : List Char} {bs : Bytes} (h : Hex.Spells ds bs) : 'x' ∉ ds := by
  intro hx
  obtain ⟨d, hd⟩ := h.isDigit 'x' hx
  exact Hex.not_isDigit_x d hd

theorem readMarkedHex_ok_iff (s : String) (bs : Bytes) :
    readMarkedHex s = .ok bs ↔ ∃ ds, Bears s ds ∧ Hex.Spells ds bs := by
  rw [readMarkedHex, readHex_ok_iff]
  constructor
  · intro h
    exact ⟨_, (withoutHexMark_eq_iff s _ h.no_mark).mp rfl, h⟩
  · rintro ⟨ds, hs, h⟩
    rwa [(withoutHexMark_eq_iff s ds h.no_mark).mpr hs]

def HexDigits (s : String) (ds : List Char) : Prop :=
  Bears s ds ∧ ∀ c ∈ ds, ∃ d, Hex.IsDigit c d

def lowered (ds : List Char) : String :=
  String.ofList ('0' :: 'x' :: ds.map Char.toLower)

theorem exists_readMarkedHex_iff (s : String) :
    (∃ bs, readMarkedHex s = .ok bs) ↔ ∃ ds, HexDigits s ds ∧ ds.length % 2 = 0 := by
  simp only [readMarkedHex_ok_iff, HexDigits, and_assoc, ← Hex.exists_spells_iff]
  constructor
  · rintro ⟨bs, ds, hs, h⟩
    exact ⟨ds, hs, bs, h⟩
  · rintro ⟨ds, hs, bs, h⟩
    exact ⟨bs, ds, hs, h⟩

theorem markedHex_injective (as bs : Bytes) (h : markedHex as = markedHex bs) : as = bs := by
  have hbs := readMarkedHex_markedHex bs
  rw [← h, readMarkedHex_markedHex] at hbs
  exact Except.ok.inj hbs

theorem markedHex_spells (ds : List Char) (bs : Bytes) (h : Hex.Spells ds bs) :
    markedHex bs = lowered ds := by
  rw [markedHex, lowered, h.lowered]

theorem readMarkedHex_lowered_iff (s : String) (bs : Bytes) :
    readMarkedHex s = .ok bs ↔
      ∃ ds, HexDigits s ds ∧ ds.length = 2 * bs.length ∧ markedHex bs = lowered ds := by
  rw [readMarkedHex_ok_iff]
  constructor
  · rintro ⟨ds, hs, h⟩
    exact ⟨ds, ⟨hs, h.isDigit⟩, h.length, markedHex_spells ds bs h⟩
  · rintro ⟨ds, ⟨hs, hdigits⟩, hlength, htext⟩
    obtain ⟨as, has⟩ := Hex.exists_spells ds (by omega) hdigits
    obtain rfl : as = bs := markedHex_injective as bs (by rw [htext, markedHex_spells ds as has])
    exact ⟨ds, hs, has⟩

end TaggedPayload.Text
