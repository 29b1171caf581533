import Mathlib.Data.Nat.Digits.Lemmas
import TaggedPayload.AccountKey

/-!
# Keys read back from their text

Writing and reading base 58 are one change of base, there and back. Zeros in front carry over one by
one; what follows them starts with another digit, so that its number alone determines it.
-/

set_option autoImplicit false

namespace TaggedPayload

namespace Text.Base58

theorem digits_eq (base n : Nat) (h : 1 < base) : digits base n = Nat.digits base n := by
  induction n using Nat.strongRecOn with
  | ind n ih =>
    rw [digits]
    by_cases h0 : n = 0
    · rw [dif_pos (Or.inl h0), h0, Nat.digits_zero]
    · have hpos : 0 < n := Nat.pos_of_ne_zero h0
      rw [dif_neg (by omega), Nat.digits_def' h hpos, ih _ (Nat.div_lt_self hpos h)]

theorem number_eq (base : Nat) (ds : List Nat) : number base ds = Nat.ofDigits base ds := by
  induction ds with
  | nil => rfl
  | cons d ds ih => rw [number, ih, Nat.ofDigits_cons]

/-! ## Change of base -/

/-- The digits in base `b` of a number in base `a`, most significant first, with the zeros in front
that the number has. -/
def rebase (a b : Nat) (ds : List Nat) : List Nat :=
  List.replicate (ds.takeWhile (· == 0)).length 0 ++ (digits b (number a ds.reverse)).reverse

theorem zeros_in_front (ds : List Nat) :
    ∃ z rest, ds = List.replicate z 0 ++ rest ∧ rest.head? ≠ some 0 := by
  induction ds with
  | nil => exact ⟨0, [], rfl, nofun⟩
  | cons d ds ih =>
    by_cases hd : d = 0
    · obtain ⟨z, rest, hds, hrest⟩ := ih
      exact ⟨z + 1, rest, by rw [hd, hds, List.replicate_succ, List.cons_append], hrest⟩
    · exact ⟨0, d :: ds, rfl, fun h => hd (Option.some.inj h)⟩

theorem rebase_zeros (a b z : Nat) (rest : List Nat) (h : rest.head? ≠ some 0) :
    rebase a b (List.replicate z 0 ++ rest) =
      List.replicate z 0 ++ (digits b (number a rest.reverse)).reverse := by
  have htake : rest.takeWhile (· == 0) = [] := by
    cases rest with
    | nil => rfl
    | cons d ds =>
      have hd : d ≠ 0 := fun hd => h (congrArg some hd)
      exact List.takeWhile_cons_of_neg (by simpa using hd)
  have hzeros : ∀ d ∈ List.replicate z 0, (d == 0) = true := fun d hd => by
    simp [List.eq_of_mem_replicate hd]
  rw [rebase, List.takeWhile_append_of_pos hzeros, htake, List.append_nil, List.length_replicate,
    List.reverse_append, List.reverse_replicate, number_eq, number_eq,
    Nat.ofDigits_append_replicate_zero]

theorem digits_head (b n : Nat) (h : 1 < b) : (digits b n).reverse.head? ≠ some 0 := by
  rw [digits_eq b n h, List.head?_reverse]
  intro hlast
  by_cases h0 : n = 0
  · rw [h0, Nat.digits_zero] at hlast
    cases hlast
  · have hne : Nat.digits b n ≠ [] := Nat.digits_ne_nil_iff_ne_zero.mpr h0
    rw [List.getLast?_eq_some_getLast hne] at hlast
    exact Nat.getLast_digit_ne_zero b h0 (Option.some.inj hlast)

theorem digits_number (b : Nat) (ds : List Nat) (h : 1 < b) (hds : ∀ d ∈ ds, d < b)
    (hhead : ds.head? ≠ some 0) : (digits b (number b ds.reverse)).reverse = ds := by
  rw [digits_eq b _ h, number_eq, Nat.digits_ofDigits b h, List.reverse_reverse]
  · intro d hd
    exact hds d (List.mem_reverse.mp hd)
  · intro hne hlast
    apply hhead
    rw [← List.reverse_reverse ds, List.head?_reverse, List.getLast?_eq_some_getLast hne, hlast]

/-- A change of base can be taken back. -/
theorem rebase_rebase (a b : Nat) (ds : List Nat) (ha : 1 < a) (hb : 1 < b)
    (hds : ∀ d ∈ ds, d < a) : rebase b a (rebase a b ds) = ds := by
  -- The zeros in front do not change the number, and both directions carry them over.
  obtain ⟨z, rest, rfl, hrest⟩ := zeros_in_front ds
  have hrest' : ∀ d ∈ rest, d < a := fun d hd => hds d (List.mem_append_right _ hd)
  rw [rebase_zeros a b z rest hrest, rebase_zeros b a z _ (digits_head b _ hb),
    List.reverse_reverse]
  have hn : number b (digits b (number a rest.reverse)) = number a rest.reverse := by
    rw [digits_eq b _ hb, number_eq, Nat.ofDigits_digits]
  rw [hn, digits_number a rest ha hrest' hrest]

theorem rebase_lt (a b : Nat) (ds : List Nat) (hb : 1 < b) : ∀ d ∈ rebase a b ds, d < b := by
  intro d hd
  rcases List.mem_append.mp hd with h | h
  · rw [List.eq_of_mem_replicate h]
    exact Nat.zero_lt_of_lt hb
  · rw [digits_eq b _ hb] at h
    exact Nat.digits_lt_base hb (List.mem_reverse.mp h)

/-! ## Texts -/

theorem digit_digitChar : ∀ d < 58, digit? (digitChar d) = some d := by
  decide

theorem mapM_digit (ds : List Nat) (h : ∀ d ∈ ds, d < 58) :
    (ds.map digitChar).mapM digit? = some ds := by
  induction ds with
  | nil => rfl
  | cons d ds ih =>
    rw [List.map_cons, List.mapM_cons, digit_digitChar d (h d List.mem_cons_self),
      ih fun e he => h e (List.mem_cons_of_mem _ he)]
    rfl

theorem encode_eq (bs : Bytes) :
    encode bs = (rebase 256 58 (bs.map UInt8.toNat)).map digitChar := by
  have hzeros : ((bs.map UInt8.toNat).takeWhile (· == 0)).length =
      (bs.takeWhile (· == 0)).length := by
    rw [List.takeWhile_map, List.length_map]
    congr 2
    funext b
    simp [← UInt8.toNat_inj]
  rw [encode, rebase, hzeros, List.map_append, List.map_replicate, List.map_reverse (l := bs)]
  rfl

theorem decode_eq (cs : List Char) :
    decode cs = (cs.mapM digit?).map fun ds => (rebase 58 256 ds).map UInt8.ofNat := by
  simp only [decode, rebase, List.map_append, List.map_replicate]
  rfl

theorem decode_encode (bs : Bytes) : decode (encode bs) = some bs := by
  have hlt : ∀ d ∈ bs.map UInt8.toNat, d < 256 := by
    intro d hd
    obtain ⟨b, _, rfl⟩ := List.mem_map.mp hd
    exact b.toNat_lt
  rw [decode_eq, encode_eq, mapM_digit _ (rebase_lt 256 58 _ (by decide)), Option.map_some,
    rebase_rebase 256 58 _ (by decide) (by decide) hlt, List.map_map]
  congr 1
  exact List.map_id'' (fun b => UInt8.ofNat_toNat) bs

end Text.Base58

/-- A key is read back from its text. -/
theorem AccountKey.ofText_text (k : AccountKey) : ofText k.text = .ok k := by
  rw [ofText, text, String.toList_ofList, Text.Base58.decode_encode, Option.bind_some, ofBytes?,
    dif_pos k.length_bytes]

end TaggedPayload
