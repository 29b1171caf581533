import TaggedPayload.Proofs.Collecting
import TaggedPayload.Proofs.Text.KeyReading

/-!
# The one text of a key

A text that reads as bytes is the text of these bytes: both are one number behind as many zeros, and
a number has one way of being written in a base. So keys and the texts that name them belong
together one by one, and every other text is refused.
-/

set_option autoImplicit false

namespace TaggedPayload

namespace Text.Base58

/-- Digits in two bases, most significant first, of one number behind equally many zeros. -/
def SameNumber (a b : Nat) (xs ys : List Nat) : Prop :=
  ∃ zeros xs' ys', xs = List.replicate zeros 0 ++ xs' ∧ ys = List.replicate zeros 0 ++ ys' ∧
    xs'.head? ≠ some 0 ∧ ys'.head? ≠ some 0 ∧
    Nat.ofDigits a xs'.reverse = Nat.ofDigits b ys'.reverse

/-- The text is the bytes' number in characters of the alphabet, and has a one in front for each of
the zeros in front of the bytes. -/
def Denotes (cs : List Char) (bs : Bytes) : Prop :=
  ∃ ds, cs = ds.map digitChar ∧ (∀ d ∈ ds, d < 58) ∧ SameNumber 256 58 (bs.map UInt8.toNat) ds

theorem rebase_eq_iff (a b : Nat) (xs ys : List Nat) (h : 1 < b) (hys : ∀ d ∈ ys, d < b) :
    rebase a b xs = ys ↔ SameNumber a b xs ys := by
  constructor
  · rintro rfl
    obtain ⟨zeros, xs', rfl, hxs'⟩ := zeros_in_front xs
    refine ⟨zeros, xs', _, rfl, rebase_zeros a b zeros xs' hxs', hxs', digits_head b _ h, ?_⟩
    rw [List.reverse_reverse, digits_eq b _ h, number_eq, Nat.ofDigits_digits]
  · rintro ⟨zeros, xs', ys', rfl, rfl, hxs', hys', hnumber⟩
    have hdigits := digits_number b ys' h (fun d hd => hys d (List.mem_append_right _ hd)) hys'
    rw [rebase_zeros a b zeros xs' hxs', number_eq, hnumber, ← number_eq, hdigits]

/-! ## Digits and their characters -/

theorem digit?_eq_some_iff (c : Char) (d : Nat) : digit? c = some d ↔ d < 58 ∧ digitChar d = c := by
  constructor
  · intro h
    obtain ⟨hd, hc, -⟩ := List.idxOf?_eq_some_iff.mp h
    exact ⟨hd, by simp [digitChar, hd, hc]⟩
  · rintro ⟨hd, rfl⟩
    exact digit_digitChar d hd

theorem mapM_digit_iff (cs : List Char) (ds : List Nat) :
    cs.mapM digit? = some ds ↔ cs = ds.map digitChar ∧ ∀ d ∈ ds, d < 58 := by
  constructor
  · intro h
    rw [mapM_some_iff] at h
    induction h with
    | nil => simp
    | cons hd _ ih =>
      obtain ⟨hlt, rfl⟩ := (digit?_eq_some_iff _ _).mp hd
      rw [List.forall_mem_cons]
      exact ⟨congrArg _ ih.1, hlt, ih.2⟩
  · rintro ⟨rfl, h⟩
    exact mapM_digit ds h

theorem decode_eq_some_iff (cs : List Char) (bs : Bytes) : decode cs = some bs ↔ encode bs = cs := by
  constructor
  · intro h
    rw [decode_eq] at h
    obtain ⟨ds, hds, rfl⟩ := Option.map_eq_some_iff.mp h
    obtain ⟨rfl, hlt⟩ := (mapM_digit_iff cs ds).mp hds
    have hbytes : ((rebase 58 256 ds).map UInt8.ofNat).map UInt8.toNat = rebase 58 256 ds := by
      rw [List.map_map, List.map_congr_left (g := id), List.map_id]
      intro d hd
      exact UInt8.toNat_ofNat_of_lt' (rebase_lt 58 256 ds (by decide) d hd)
    rw [encode_eq, hbytes, rebase_rebase 58 256 ds (by decide) (by decide) hlt]
  · rintro rfl
    exact decode_encode bs

theorem encode_eq_iff (cs : List Char) (bs : Bytes) : encode bs = cs ↔ Denotes cs bs := by
  rw [encode_eq]
  constructor
  · rintro rfl
    exact ⟨_, rfl, rebase_lt 256 58 _ (by decide),
      (rebase_eq_iff 256 58 _ _ (by decide) (rebase_lt 256 58 _ (by decide))).mp rfl⟩
  · rintro ⟨ds, rfl, hlt, hsame⟩
    rw [(rebase_eq_iff 256 58 _ ds (by decide) hlt).mpr hsame]

end Text.Base58

namespace AccountKey

theorem ofBytes?_eq_some_iff (bs : Bytes) (k : AccountKey) :
    ofBytes? bs = some k ↔ bs = k.bytes := by
  rw [ofBytes?]
  constructor
  · intro h
    split at h
    next =>
      cases h
      rfl
    next => cases h
  · rintro rfl
    exact dif_pos k.length_bytes

theorem read_iff (s : String) (k : AccountKey) :
    (Text.Base58.decode s.toList).bind ofBytes? = some k ↔ k.text = s := by
  simp only [Option.bind_eq_some_iff, ofBytes?_eq_some_iff, exists_eq_right,
    Text.Base58.decode_eq_some_iff, text]
  rw [← String.toList_inj, String.toList_ofList]

theorem ofText_ok_iff (s : String) (k : AccountKey) : ofText s = .ok k ↔ k.text = s := by
  rw [← read_iff, ofText]
  cases (Text.Base58.decode s.toList).bind ofBytes? <;> simp

theorem text_injective (j k : AccountKey) (h : j.text = k.text) : j = k := by
  have hj := (ofText_ok_iff k.text j).mpr h
  rw [ofText_text] at hj
  exact (Except.ok.inj hj).symm

theorem ofText_error_iff (s : String) (f : KeyFault) :
    ofText s = .error f ↔ f = ⟨s⟩ ∧ ∀ k : AccountKey, k.text ≠ s := by
  simp only [ne_eq, ← read_iff, ofText]
  cases (Text.Base58.decode s.toList).bind ofBytes? <;> simp [eq_comm]

end AccountKey

end TaggedPayload
