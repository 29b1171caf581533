import TaggedPayload.Binary.Width
import TaggedPayload.Tag

/-!
# Little-endian numbers

Byte strings of one length stand for the numbers below a power of 256, one for each. So a number
that fits is read back as it was written, signed or not, and tags with equal numbers are equal.
-/

set_option autoImplicit false

namespace TaggedPayload

namespace Bytes

theorem span_succ (w : Nat) : span (w + 1) = span w * 256 := rfl

theorem span_pos (w : Nat) : 0 < span w :=
  Nat.pow_pos (by decide)

theorem toNat_lt (bs : Bytes) : toNat bs < span bs.length := by
  induction bs with
  | nil => decide
  | cons b bs ih =>
    have hb : b.toNat < 256 := b.toNat_lt
    rw [toNat, List.length_cons, span_succ]
    omega

theorem toNat_injective (as bs : Bytes) (hl : as.length = bs.length) (h : toNat as = toNat bs) :
    as = bs := by
  induction as generalizing bs with
  | nil => exact (List.eq_nil_of_length_eq_zero hl.symm).symm
  | cons a as ih =>
    cases bs with
    | nil => cases hl
    | cons b bs =>
      have ha : a.toNat < 256 := a.toNat_lt
      have hb : b.toNat < 256 := b.toNat_lt
      simp only [toNat] at h
      rw [UInt8.toNat_inj.mp (show a.toNat = b.toNat by omega),
        ih bs (Nat.succ.inj hl) (by omega)]

theorem toNat_ofNat (w n : Nat) (h : n < span w) : toNat (ofNat w n) = n := by
  induction w generalizing n with
  | zero =>
    have h1 : n < 1 := h
    rw [ofNat, toNat]
    omega
  | succ w ih =>
    rw [span_succ] at h
    have hd : n / 256 < span w := Nat.div_lt_of_lt_mul (by omega)
    have hm : (UInt8.ofNat (n % 256)).toNat = n % 256 :=
      UInt8.toNat_ofNat_of_lt' (Nat.mod_lt n (by decide))
    rw [ofNat, toNat, ih _ hd, hm]
    omega

theorem ofNat_toNat (bs : Bytes) : ofNat bs.length (toNat bs) = bs :=
  toNat_injective _ _ (length_ofNat _ _) (toNat_ofNat _ _ (toNat_lt bs))

/-- The lower half of the range stands for itself, the upper half for the negative numbers. -/
theorem toInt_ofInt (w : Nat) (i : Int) (hl : -(span w : Int) ≤ 2 * i) (hu : 2 * i < span w) :
    toInt (ofInt w i) = i := by
  have hpos := span_pos w
  have hm : (i % span w).toNat < span w := by
    have := Int.emod_lt_of_pos i (show (0 : Int) < span w by omega)
    have := Int.emod_nonneg i (show (span w : Int) ≠ 0 by omega)
    omega
  rw [toInt, ofInt, toNat_ofNat w _ hm, length_ofNat]
  rcases Int.lt_or_le i 0 with hneg | hnonneg
  · have hr : i % span w = i + span w := by
      rw [← Int.add_emod_right, Int.emod_eq_of_lt (by omega) (by omega)]
    rw [if_neg (by omega)]
    omega
  · have hr : i % span w = i := Int.emod_eq_of_lt hnonneg (by omega)
    rw [if_pos (by omega)]
    omega

theorem toInt_range (bs : Bytes) :
    -(span bs.length : Int) ≤ 2 * toInt bs ∧ 2 * toInt bs < span bs.length := by
  have hlt := toNat_lt bs
  rw [toInt]
  split <;> omega

theorem ofInt_toInt (bs : Bytes) : ofInt bs.length (toInt bs) = bs := by
  have hlt := toNat_lt bs
  have hmod : (toInt bs % span bs.length).toNat = toNat bs := by
    rw [toInt]
    split
    · rw [Int.emod_eq_of_lt (by omega) (by omega), Int.toNat_natCast]
    · rw [Int.sub_emod_right, Int.emod_eq_of_lt (by omega) (by omega), Int.toNat_natCast]
  rw [ofInt, hmod, ofNat_toNat]

end Bytes

theorem tag_toNat_injective : Function.Injective Tag.toNat := by
  intro s t h
  exact Tag.ext (Bytes.toNat_injective _ _ (s.length_bytes.trans t.length_bytes.symm) h)

end TaggedPayload
