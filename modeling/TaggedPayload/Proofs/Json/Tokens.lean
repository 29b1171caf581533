import TaggedPayload.Json.Reader
import TaggedPayload.Json.Writer
import TaggedPayload.Proofs.Text.Numerals

/-!
# Strings and integers read back from JSON

A string comes back behind its escapes, character by character, whatever stands behind its closing
quote. The digits of an integer come back as its magnitude; what stands behind them must not go on
with the number, and a blank, a comma and a closing bracket do not.
-/

set_option autoImplicit false

namespace TaggedPayload.Json

/-! ## Strings -/

theorem digitValue_digitChar (n : Nat) (h : n < 16) :
    Text.digitValue? 16 (Nat.digitChar n) = some n := by
  decide +revert

theorem readString_unicode (n : Nat) (p : StringPart) (rest : List Char) (h : n < 32) :
    readString .plain p
        ('\\' :: 'u' :: '0' :: '0' :: Nat.digitChar (n / 16) :: Nat.digitChar (n % 16) :: rest) =
      readString .plain (p.push (Char.ofNat n)) rest := by
  have hhigh := digitValue_digitChar (n / 16) (by omega)
  have hlow := digitValue_digitChar (n % 16) (by omega)
  have hzero : Text.digitValue? 16 '0' = some 0 := rfl
  have hn : n / 16 * 16 + n % 16 = n := by omega
  have hunit : p.pushUnit n = p.push (Char.ofNat n) := by
    rw [StringPart.pushUnit, if_neg (by omega), if_neg (by omega)]
  simp [readString, hzero, hhigh, hlow, hn, hunit]

/-- An escaped character is read as that character. -/
theorem readString_escape (c : Char) (p : StringPart) (rest : List Char) :
    readString .plain p (escape c ++ rest) = readString .plain (p.push c) rest := by
  rw [escape]
  -- The seven escapes of one letter are read alike.
  iterate 7
    split
    · next h => simp [readString, unescape?, h]
  split
  · next h =>
    have hc := readString_unicode c.toNat p rest h
    rwa [Char.ofNat_toNat] at hc
  · next hquote hslash _ _ _ _ _ hplain => simp [readString, hquote, hslash, hplain]

theorem readString_escapes (cs : List Char) (p : StringPart) (rest : List Char) :
    readString .plain p (cs.flatMap escape ++ '"' :: rest) =
      some ((cs.foldl StringPart.push p).text?, rest) := by
  induction cs generalizing p with
  | nil => simp [readString]
  | cons c cs ih =>
    rw [List.flatMap_cons, List.append_assoc, readString_escape, ih]
    rfl

theorem push_all (cs done : List Char) :
    cs.foldl StringPart.push ⟨done, none, false⟩ = ⟨cs.reverse ++ done, none, false⟩ := by
  induction cs generalizing done with
  | nil => rfl
  | cons c cs ih =>
    have hpush : StringPart.push ⟨done, none, false⟩ c = ⟨c :: done, none, false⟩ := rfl
    rw [List.foldl_cons, hpush, ih, List.reverse_cons, List.append_assoc]
    rfl

theorem readString_string (s : String) (rest : List Char) :
    readString .plain .empty (s.toList.flatMap escape ++ '"' :: rest) = some (some s, rest) := by
  rw [readString_escapes, StringPart.empty, push_all]
  simp [StringPart.text?]

/-! ## Integers -/

/-- No number goes on with this text. -/
def EndsNumber (rest : List Char) : Prop :=
  ∀ c ∈ rest.head?, isDigit c = false ∧ c ≠ '.' ∧ c ≠ 'e' ∧ c ≠ 'E'

theorem isDigit_decimal (n : Nat) (c : Char) (h : c ∈ Text.decimal n) : isDigit c = true := by
  have hc := Text.decimal_isDigit n c h
  simpa [isDigit, Char.isDigit, Char.le_def] using hc

theorem ne_of_isDigit (c d : Char) (hc : isDigit c = true) (hd : isDigit d = false) : c ≠ d := by
  rintro rfl
  rw [hc] at hd
  cases hd

theorem isBlank_of_isDigit (c : Char) (h : isDigit c = true) : isBlank c = false := by
  rw [← Bool.not_eq_true]
  intro hb
  simp only [isBlank, Bool.or_eq_true, beq_iff_eq] at hb
  rcases hb with ((rfl | rfl) | rfl) | rfl <;> exact absurd h (by decide)

theorem decimal_head (n : Nat) (h : 0 < n) : (Text.decimal n).head? ≠ some '0' := by
  rw [Text.decimal]
  induction n using Nat.strongRecOn with
  | ind n ih =>
    by_cases hn : n < 10
    · rw [Nat.toDigits_of_lt_base hn]
      simp only [List.head?_cons, ne_eq, Option.some.injEq, Nat.digitChar_eq_zero]
      omega
    · have hfront := ih (n / 10) (by omega) (by omega)
      rw [Nat.toDigits_of_base_le (by decide) (by omega)]
      cases hds : Nat.toDigits 10 (n / 10) with
      | nil => exact absurd hds Nat.toDigits_ne_nil
      | cons d ds =>
        rw [hds] at hfront
        exact hfront

theorem decimalValue_decimal (n : Nat) : decimalValue (Text.decimal n) = n := by
  have hfold : decimalValue (Text.decimal n) = Nat.ofDigitChars 10 (Text.decimal n) 0 := by
    rw [decimalValue, Nat.ofDigitChars_eq_foldl]
    simp only [Nat.mul_comm]
    rfl
  rw [hfold, Text.decimal_value]

theorem takeWhile_digits (rest : List Char) (h : EndsNumber rest) :
    rest.takeWhile isDigit = [] ∧ rest.dropWhile isDigit = rest := by
  cases rest with
  | nil => exact ⟨rfl, rfl⟩
  | cons c rest => simp [(h c rfl).1]

theorem digits?_decimal (n : Nat) (rest : List Char) (h : EndsNumber rest) :
    digits? (Text.decimal n ++ rest) = some (Text.decimal n, rest) := by
  have hall : ∀ c ∈ Text.decimal n, isDigit c = true := isDigit_decimal n
  obtain ⟨htake, hdrop⟩ := takeWhile_digits rest h
  rw [digits?, List.takeWhile_append_of_pos hall, List.dropWhile_append_of_pos hall, htake, hdrop,
    List.append_nil]
  cases hn : Text.decimal n with
  | nil => exact absurd hn (Text.decimal_ne_nil n)
  | cons d ds => rfl

theorem fraction?_none (rest : List Char) (h : EndsNumber rest) :
    fraction? rest = some ([], rest) := by
  cases rest with
  | nil => rfl
  | cons c rest => simp [fraction?, (h c rfl).2.1]

theorem exponent?_none (rest : List Char) (h : EndsNumber rest) :
    exponent? rest = some ([], rest) := by
  cases rest with
  | nil => rfl
  | cons c rest => simp [exponent?, (h c rfl).2.2.1, (h c rfl).2.2.2]

theorem readNumber_decimal (neg : Bool) (n : Nat) (rest : List Char) (h : EndsNumber rest) :
    readNumber neg (Text.decimal n ++ rest) = (integer neg n, some rest) := by
  have hlead : ¬((Text.decimal n).length > 1 ∧ (Text.decimal n).head? = some '0') := by
    rintro ⟨hlong, hzero⟩
    by_cases hn : n = 0
    · rw [hn, Text.decimal, Nat.toDigits_zero] at hlong
      exact absurd hlong (by decide)
    · exact decimal_head n (Nat.pos_of_ne_zero hn) hzero
  simp [readNumber, digits?_decimal n rest h, fraction?_none rest h, exponent?_none rest h, hlead,
    decimalValue_decimal]

/-! ## Blanks -/

theorem skipBlanks_append (bs cs : List Char) (h : ∀ c ∈ bs, isBlank c = true) :
    skipBlanks (bs ++ cs) = skipBlanks cs :=
  List.dropWhile_append_of_pos h

theorem skipBlanks_cons (c : Char) (cs : List Char) (h : isBlank c = false) :
    skipBlanks (c :: cs) = c :: cs :=
  List.dropWhile_cons_of_neg (by simp [h])

theorem readValue_blanks (fuel : Nat) (bs cs : List Char) (h : ∀ c ∈ bs, isBlank c = true) :
    readValue fuel (bs ++ cs) = readValue fuel cs := by
  cases fuel with
  | zero => rfl
  | succ fuel => rw [readValue, readValue, skipBlanks_append bs cs h]

theorem endsNumber_cons (c : Char) (rest : List Char)
    (h : isDigit c = false ∧ c ≠ '.' ∧ c ≠ 'e' ∧ c ≠ 'E') : EndsNumber (c :: rest) := by
  rintro d ⟨⟩
  exact h

theorem endsNumber_blanks (bs rest : List Char) (hbs : ∀ c ∈ bs, isBlank c = true)
    (h : EndsNumber rest) : EndsNumber (bs ++ rest) := by
  cases bs with
  | nil => exact h
  | cons b bs =>
    apply endsNumber_cons
    have hb := hbs b List.mem_cons_self
    simp only [isBlank, Bool.or_eq_true, beq_iff_eq] at hb
    rcases hb with ((rfl | rfl) | rfl) | rfl <;> decide

end TaggedPayload.Json
