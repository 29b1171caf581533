import Mathlib.Algebra.Group.Nat.Defs
import TaggedPayload.Text.Number

/-!
# Decimal numbers read from text

A size is read from decimal digits behind an optional plus sign. There may be any number of digits,
zeros in front included: what counts is their value. The digits written for a size are such a text,
so the size is read back, and different numbers have different texts.
-/

set_option autoImplicit false

namespace TaggedPayload.Text

/-- Decimal digits behind an optional plus sign, for a number below `2 ^ 64`. -/
def Numeral (cs : List Char) (n : Nat) : Prop :=
  ∃ ds, (cs = ds ∨ cs = '+' :: ds) ∧ ds ≠ [] ∧ (∀ d ∈ ds, d.isDigit) ∧
    Nat.ofDigitChars 10 ds 0 = n ∧ n < 2 ^ 64

/-! ## Digits -/

theorem isDigit_iff (c : Char) : c.isDigit ↔ 48 ≤ c.toNat ∧ c.toNat ≤ 57 := by
  simp only [Char.isDigit, Bool.and_eq_true, decide_eq_true_eq]
  rfl

theorem digitValue?_ten (c : Char) :
    digitValue? 10 c = if c.isDigit then some (c.toNat - 48) else none := by
  simp only [digitValue?, isDigit_iff]
  by_cases h : 48 ≤ c.toNat ∧ c.toNat ≤ 57
  · rw [if_pos h, if_pos h, if_pos (by omega)]
  · rw [if_neg h, if_neg h, if_neg]
    split
    · omega
    · split <;> omega

theorem le_ofDigitChars (ds : List Char) (value : Nat) : value ≤ Nat.ofDigitChars 10 ds value := by
  induction ds generalizing value with
  | nil => exact Nat.le_refl value
  | cons d ds ih =>
    rw [Nat.ofDigitChars_cons]
    have := ih (10 * value + (d.toNat - '0'.toNat))
    omega

/-- The value only grows, so no part of a number below the bound reaches the bound. -/
theorem readDigits_ok_iff (bound value n : Nat) (ds : List Char) (h : value < bound) :
    readDigits 10 bound value ds = .ok n ↔
      (∀ d ∈ ds, d.isDigit) ∧ Nat.ofDigitChars 10 ds value = n ∧ n < bound := by
  induction ds generalizing value with
  | nil =>
    simp only [readDigits, Except.ok.injEq, List.not_mem_nil, false_implies, implies_true, true_and,
      Nat.ofDigitChars_eq_foldl, List.foldl_nil]
    omega
  | cons d ds ih =>
    rw [readDigits, digitValue?_ten, Nat.ofDigitChars_cons, List.forall_mem_cons]
    by_cases hd : d.isDigit
    · have hvalue : 10 * value + (d.toNat - '0'.toNat) = value * 10 + (d.toNat - 48) := by
        rw [Nat.mul_comm]
        rfl
      rw [if_pos hd, hvalue]
      by_cases hsmall : value * 10 + (d.toNat - 48) < bound
      · simp [hsmall, hd, ih _ hsmall]
      · have hgrows := le_ofDigitChars ds (value * 10 + (d.toNat - 48))
        simp only [hsmall, if_false, reduceCtorEq, false_iff]
        omega
    · simp [hd]

theorem decimal_ne_nil (n : Nat) : decimal n ≠ [] :=
  Nat.toDigits_ne_nil

theorem decimal_isDigit (n : Nat) : ∀ d ∈ decimal n, d.isDigit :=
  fun _ hd => Nat.isDigit_of_mem_toDigits (by decide) (by decide) hd

theorem decimal_value (n : Nat) : Nat.ofDigitChars 10 (decimal n) 0 = n :=
  Nat.ofDigitChars_ten_toDigits

theorem decimal_injective (m n : Nat) (h : decimal m = decimal n) : m = n := by
  rw [← decimal_value m, h, decimal_value]

/-! ## Sizes -/

theorem readSize_signed (ds : List Char) (h : ds ≠ []) :
    readSize ('+' :: ds) = readDigits 10 sizeBound 0 ds := by
  cases ds with
  | nil => exact absurd rfl h
  | cons d ds => rfl

theorem readSize_unsigned (ds : List Char) (h : ds ≠ []) (hsign : ds.head? ≠ some '+') :
    readSize ds = readDigits 10 sizeBound 0 ds := by
  cases ds with
  | nil => exact absurd rfl h
  | cons d ds =>
    have hd : d ≠ '+' := fun hd => hsign (congrArg some hd)
    simp [readSize, readUnsigned, hd]

theorem readSize_ok_iff (cs : List Char) (n : Nat) : readSize cs = .ok n ↔ Numeral cs n := by
  have hdigits := fun ds => readDigits_ok_iff sizeBound 0 n ds (by decide)
  constructor
  · intro h
    by_cases hsign : cs.head? = some '+'
    · obtain ⟨ds, rfl⟩ := List.head?_eq_some_iff.mp hsign
      by_cases hne : ds = []
      · subst hne
        cases h
      · rw [readSize_signed ds hne, hdigits] at h
        exact ⟨ds, .inr rfl, hne, h⟩
    · by_cases hne : cs = []
      · subst hne
        cases h
      · rw [readSize_unsigned cs hne hsign, hdigits] at h
        exact ⟨cs, .inl rfl, hne, h⟩
  · rintro ⟨ds, rfl | rfl, hne, hds, hn⟩
    · rw [readSize_unsigned cs hne, hdigits]
      · exact ⟨hds, hn⟩
      · intro hsign
        exact absurd (hds '+' (List.mem_of_mem_head? hsign)) (by decide)
    · rw [readSize_signed ds hne, hdigits]
      exact ⟨hds, hn⟩

theorem numeral_decimal (n : Nat) (h : n < 2 ^ 64) : Numeral (decimal n) n :=
  ⟨decimal n, .inl rfl, decimal_ne_nil n, decimal_isDigit n, decimal_value n, h⟩

end TaggedPayload.Text
