import TaggedPayload.Proofs.Account.ExactRanges

/-!
# Stored accounts that are cut off

A stored account may be cut anywhere, and anything may stand behind it. Each accessor returns the
field that was stored once the cut reaches the end of that field, and the zero of its type before.
The fields behind the data need the stored length first: while the cut takes away part of it, they
are out of reach whatever is left of that number.
-/

set_option autoImplicit false

namespace TaggedPayload

def Account.parts (a : Account) : List Bytes :=
  [a.key.bytes, Bytes.ofNat 8 a.lamports, Bytes.ofNat 8 a.data.length, a.data, a.owner.bytes,
    [if a.executable then 1 else 0], Bytes.ofNat 8 a.rentEpoch]

theorem Account.encode_parts (a : Account) : a.encode = a.parts.flatten := by
  simp [encode, parts]

namespace AccountBuffer

/-- The first `cut` bytes of a stored account with something behind it. -/
def ofCut (a : Account) (rest : Bytes) (cut : Nat) : AccountBuffer :=
  ⟨(a.encode ++ rest).take cut⟩

theorem keyIn_part (k : AccountKey) (p : Prop) [Decidable p] :
    keyIn (if p then some k.bytes else none) = if p then k else .zero := by
  by_cases h : p
  · simp [h, keyIn, AccountKey.ofBytes?, k.length_bytes]
  · simp [h, keyIn]

theorem numberIn_part (n : Nat) (hn : n < 2 ^ 64) (p : Prop) [Decidable p] :
    numberIn (if p then some (Bytes.ofNat 8 n) else none) = if p then n else 0 := by
  by_cases h : p
  · simp [h, numberIn, Bytes.toNat_ofNat 8 n hn]
  · simp [h, numberIn]

variable (a : Account) (rest : Bytes) (cut : Nat)

theorem length_ofCut : (ofCut a rest cut).bytes.length ≤ cut := by
  rw [ofCut, List.length_take]
  omega

/-- A stored field is in the buffer just if the cut does not come before its end. -/
theorem range?_part {i start count stop : Nat} {part : Bytes} (hpart : a.parts[i]? = some part)
    (hstart : (a.parts.take i).flatten.length = start) (hcount : part.length = count)
    (hstop : start + count = stop) :
    (ofCut a rest cut).range? start count = if stop ≤ cut then some part else none := by
  subst hstart hcount hstop
  obtain ⟨hi, rfl⟩ := List.getElem?_eq_some_iff.mp hpart
  have hwhole : a.encode = (a.parts.take i).flatten ++ (a.parts[i] ++
      (a.parts.drop (i + 1)).flatten) := by
    rw [a.encode_parts, ← List.flatten_cons, ← List.drop_eq_getElem_cons hi, ← List.flatten_append,
      List.take_append_drop]
  have hlen : (ofCut a rest cut).bytes.length = min cut ((a.parts.take i).flatten.length +
      (a.parts[i].length + (a.parts.drop (i + 1)).flatten.length) + rest.length) := by
    rw [ofCut, List.length_take, List.length_append, hwhole, List.length_append, List.length_append]
  by_cases h : (a.parts.take i).flatten.length + a.parts[i].length ≤ cut
  · rw [range?, if_pos (by omega), if_pos h, ofCut, hwhole, List.append_assoc, List.append_assoc,
      List.drop_take, List.drop_left, List.take_take, Nat.min_eq_left (by omega), List.take_left]
  · rw [if_neg h, range?_none (by omega)]

theorem range?_length : (ofCut a rest cut).range? 40 8 =
    if 48 ≤ cut then some (Bytes.ofNat 8 a.data.length) else none := by
  have hstart : (a.parts.take 2).flatten.length = 40 := by simp [Account.parts, a.key.length_bytes]
  exact range?_part a rest cut rfl hstart (Bytes.length_ofNat 8 _) rfl

theorem storedLength_ofCut (hdata : a.data.length < 2 ^ 64) (h : 48 ≤ cut) :
    (ofCut a rest cut).storedLength = a.data.length := by
  have hrange := range?_length a rest cut
  rw [if_pos h] at hrange
  rw [storedLength, range?_bytes hrange, Bytes.toNat_ofNat 8 _ hdata]

theorem range?_data (hdata : a.data.length < 2 ^ 64) :
    (ofCut a rest cut).range? 48 (ofCut a rest cut).storedLength =
      if 48 + a.data.length ≤ cut then some a.data else none := by
  by_cases h : 48 ≤ cut
  · have hstart : (a.parts.take 3).flatten.length = 48 := by
      simp [Account.parts, a.key.length_bytes]
    rw [storedLength_ofCut a rest cut hdata h]
    exact range?_part a rest cut rfl hstart rfl rfl
  · have hlen := length_ofCut a rest cut
    rw [if_neg (by omega), range?_none (by omega)]

/-- A field behind the data is found by the length that is left in the buffer. -/
theorem range?_behind (hdata : a.data.length < 2 ^ 64) {i start count stop : Nat} {part : Bytes}
    (hpart : a.parts[i]? = some part)
    (hstart : (a.parts.take i).flatten.length = start + a.data.length)
    (hcount : part.length = count) (hfirst : 48 ≤ start) (hstop : start + count = stop) :
    (ofCut a rest cut).range? (start + (ofCut a rest cut).storedLength) count =
      if stop + a.data.length ≤ cut then some part else none := by
  by_cases h : 48 ≤ cut
  · rw [storedLength_ofCut a rest cut hdata h]
    exact range?_part a rest cut hpart hstart hcount (by omega)
  · have hlen := length_ofCut a rest cut
    rw [if_neg (by omega), range?_none (by omega)]

theorem range?_epoch (hdata : a.data.length < 2 ^ 64) :
    (ofCut a rest cut).range? (81 + (ofCut a rest cut).storedLength) 8 =
      if 89 + a.data.length ≤ cut then some (Bytes.ofNat 8 a.rentEpoch) else none := by
  have hstart : (a.parts.take 6).flatten.length = 81 + a.data.length := by
    simp [Account.parts, a.key.length_bytes, a.owner.length_bytes]
    omega
  exact range?_behind a rest cut hdata rfl hstart (Bytes.length_ofNat 8 _) (by decide) rfl

/-! ## Accessors -/

variable {a rest cut}

theorem key_ofCut (hsize : (ofCut a rest cut).bytes.length < 2 ^ 64) :
    (ofCut a rest cut).key = if 32 ≤ cut then a.key else .zero := by
  have hstart : (a.parts.take 0).flatten.length = 0 := rfl
  rw [(exact hsize).key, range?_part a rest cut rfl hstart a.key.length_bytes rfl, keyIn_part]

theorem lamports_ofCut (hsize : (ofCut a rest cut).bytes.length < 2 ^ 64)
    (hlamports : a.lamports < 2 ^ 64) :
    (ofCut a rest cut).lamports = if 40 ≤ cut then a.lamports else 0 := by
  have hstart : (a.parts.take 1).flatten.length = 32 := by simp [Account.parts, a.key.length_bytes]
  rw [(exact hsize).lamports, range?_part a rest cut rfl hstart (Bytes.length_ofNat 8 _) rfl,
    numberIn_part _ hlamports]

theorem declaredLength_ofCut (hsize : (ofCut a rest cut).bytes.length < 2 ^ 64)
    (hdata : a.data.length < 2 ^ 64) :
    (ofCut a rest cut).declaredLength = if 48 ≤ cut then a.data.length else 0 := by
  rw [(exact hsize).declaredLength, range?_length, numberIn_part _ hdata]

theorem data_ofCut (hsize : (ofCut a rest cut).bytes.length < 2 ^ 64)
    (hdata : a.data.length < 2 ^ 64) :
    (ofCut a rest cut).data = if 48 + a.data.length ≤ cut then a.data else [] := by
  rw [(exact hsize).data, range?_data a rest cut hdata]
  by_cases h : 48 + a.data.length ≤ cut <;> simp [h]

theorem owner_ofCut (hsize : (ofCut a rest cut).bytes.length < 2 ^ 64)
    (hdata : a.data.length < 2 ^ 64) :
    (ofCut a rest cut).owner = if 80 + a.data.length ≤ cut then a.owner else .zero := by
  have hstart : (a.parts.take 4).flatten.length = 48 + a.data.length := by
    simp [Account.parts, a.key.length_bytes]
    omega
  rw [(exact hsize).owner, range?_behind a rest cut hdata rfl hstart a.owner.length_bytes
    (by decide) rfl, keyIn_part]

theorem executable_ofCut (hsize : (ofCut a rest cut).bytes.length < 2 ^ 64)
    (hdata : a.data.length < 2 ^ 64) :
    (ofCut a rest cut).executable = if 81 + a.data.length ≤ cut then a.executable else false := by
  have hstart : (a.parts.take 5).flatten.length = 80 + a.data.length := by
    simp [Account.parts, a.key.length_bytes, a.owner.length_bytes]
    omega
  have hrange := range?_behind a rest cut hdata rfl hstart List.length_singleton (by decide) rfl
  rw [(exact hsize).executable, hrange]
  by_cases h : 81 + a.data.length ≤ cut <;> cases a.executable <;> simp [h]

theorem rentEpoch_ofCut (hsize : (ofCut a rest cut).bytes.length < 2 ^ 64)
    (hdata : a.data.length < 2 ^ 64) (hepoch : a.rentEpoch < 2 ^ 64) :
    (ofCut a rest cut).rentEpoch = if 89 + a.data.length ≤ cut then a.rentEpoch else 0 := by
  rw [(exact hsize).rentEpoch, range?_epoch a rest cut hdata, numberIn_part _ hepoch]

theorem isComplete_ofCut (hsize : (ofCut a rest cut).bytes.length < 2 ^ 64)
    (hdata : a.data.length < 2 ^ 64) :
    (ofCut a rest cut).isComplete = true ↔ 89 + a.data.length ≤ cut := by
  -- The account is complete just when its last field is in the buffer.
  have hreach : 89 + (ofCut a rest cut).storedLength ≤ (ofCut a rest cut).bytes.length ↔
      ((ofCut a rest cut).range? (81 + (ofCut a rest cut).storedLength) 8).isSome = true := by
    rw [range?_isSome]
    omega
  rw [(exact hsize).isComplete, decide_eq_true_iff, hreach, range?_epoch a rest cut hdata]
  by_cases h : 89 + a.data.length ≤ cut <;> simp [h]

/-- Each accessor of a stored account that is cut off, or has something behind it, returns the field
that was stored when the cut reaches the end of that field, and the zero of its type when it does
not. The account is complete just when the cut reaches the end of its last field. -/
theorem whole_fields_or_zero (a : Account) (rest : Bytes) (cut : Nat)
    (hlamports : a.lamports < 2 ^ 64) (hdata : a.data.length < 2 ^ 64)
    (hepoch : a.rentEpoch < 2 ^ 64) (hsize : ((a.encode ++ rest).take cut).length < 2 ^ 64) :
    let b : AccountBuffer := ⟨(a.encode ++ rest).take cut⟩
    b.key = (if 32 ≤ cut then a.key else .zero) ∧
    b.lamports = (if 40 ≤ cut then a.lamports else 0) ∧
    b.declaredLength = (if 48 ≤ cut then a.data.length else 0) ∧
    b.data = (if 48 + a.data.length ≤ cut then a.data else []) ∧
    b.owner = (if 80 + a.data.length ≤ cut then a.owner else .zero) ∧
    b.executable = (if 81 + a.data.length ≤ cut then a.executable else false) ∧
    b.rentEpoch = (if 89 + a.data.length ≤ cut then a.rentEpoch else 0) ∧
    (b.isComplete = true ↔ 89 + a.data.length ≤ cut) :=
  ⟨key_ofCut hsize, lamports_ofCut hsize hlamports, declaredLength_ofCut hsize hdata,
    data_ofCut hsize hdata, owner_ofCut hsize hdata, executable_ofCut hsize hdata,
    rentEpoch_ofCut hsize hdata hepoch, isComplete_ofCut hsize hdata⟩

/-- Three bytes of data: the cut takes away the end of the stored length, then the end of the data,
then nothing but what stands behind the account. -/
theorem whole_fields_or_zero_cuts :
    let a : Account :=
      ⟨⟨List.replicate 32 1, rfl⟩, 5, [7, 8, 9], ⟨List.replicate 32 2, rfl⟩, true, 361⟩
    let b (cut : Nat) : AccountBuffer := ⟨(a.encode ++ [255, 255]).take cut⟩
    (∀ cut, (b cut).bytes.length < 2 ^ 64) ∧
      (b 47).lamports = 5 ∧ (b 47).declaredLength = 0 ∧ (b 47).data = [] ∧
      (b 50).declaredLength = 3 ∧ (b 50).data = [] ∧ (b 50).owner = .zero ∧
      (b 93).data = [7, 8, 9] ∧ (b 93).owner = a.owner ∧ (b 93).executable = true ∧
      (b 93).rentEpoch = 361 ∧ (b 93).isComplete = true := by
  intro a b
  have hsize : ∀ cut, (b cut).bytes.length < 2 ^ 64 := by
    intro cut
    show ((a.encode ++ [255, 255]).take cut).length < 2 ^ 64
    have hlen : (a.encode ++ [255, 255]).length = 94 := by decide
    rw [List.length_take, hlen]
    omega
  have hlamports : a.lamports < 2 ^ 64 := by decide
  have hdata : a.data.length < 2 ^ 64 := by decide
  have hepoch : a.rentEpoch < 2 ^ 64 := by decide
  have h (cut : Nat) := whole_fields_or_zero a [255, 255] cut hlamports hdata hepoch (hsize cut)
  exact ⟨hsize, (h 47).2.1, (h 47).2.2.1, (h 47).2.2.2.1, (h 50).2.2.1, (h 50).2.2.2.1,
    (h 50).2.2.2.2.1, (h 93).2.2.2.1, (h 93).2.2.2.2.1, (h 93).2.2.2.2.2.1, (h 93).2.2.2.2.2.2.1,
    (h 93).2.2.2.2.2.2.2.mpr (by decide)⟩

end AccountBuffer

end TaggedPayload
