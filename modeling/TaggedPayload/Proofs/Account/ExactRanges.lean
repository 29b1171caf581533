import Mathlib.Algebra.Group.Nat.Defs
import TaggedPayload.AccountBuffer
import TaggedPayload.Proofs.Binary.LittleEndian

/-!
# Accounts in buffers of any bytes

The length of the data comes from the buffer itself, so every offset behind the data is a sum that
someone else chose. The sums are checked. A sum that is no size lies behind every buffer, so that a
checked range and the same range with unbounded offsets are there together. From this each accessor
is known on every buffer.
-/

set_option autoImplicit false

namespace TaggedPayload

namespace AccountBuffer

/-- `count` bytes from `start`, when the buffer holds them; the offsets are unbounded. -/
def range? (b : AccountBuffer) (start count : Nat) : Option Bytes :=
  if start + count ≤ b.bytes.length then some ((b.bytes.drop start).take count) else none

/-- The key in a range, or the zero key. -/
def keyIn (part : Option Bytes) : AccountKey :=
  (part.bind AccountKey.ofBytes?).getD .zero

/-- The number in a range, or zero. -/
def numberIn (part : Option Bytes) : Nat :=
  (part.map Bytes.toNat).getD 0

/-- The number that stands where the length of the data is stored. -/
def storedLength (b : AccountBuffer) : Nat :=
  Bytes.toNat ((b.bytes.drop 40).take 8)

/-- Every accessor answers from its own range of the layout. -/
structure Exact (b : AccountBuffer) : Prop where
  key : b.key = keyIn (b.range? 0 32)
  lamports : b.lamports = numberIn (b.range? 32 8)
  declaredLength : b.declaredLength = numberIn (b.range? 40 8)
  data : b.data = (b.range? 48 b.storedLength).getD []
  owner : b.owner =
    keyIn (b.range? (48 + b.storedLength) 32)
  executable : b.executable = (b.range? (80 + b.storedLength) 1).any (· != [0])
  rentEpoch : b.rentEpoch = numberIn (b.range? (81 + b.storedLength) 8)
  isComplete : b.isComplete = decide (89 + b.storedLength ≤ b.bytes.length)

theorem offset?_eq (m n : Nat) :
    offset? m n = if m + n < 2 ^ 64 then some (m + n) else none := rfl

variable {b : AccountBuffer}

theorem range?_none {start count : Nat} (h : b.bytes.length < start + count) :
    b.range? start count = none := by
  simp [range?, h]

theorem range?_isSome (b : AccountBuffer) (start count : Nat) :
    (b.range? start count).isSome = true ↔ start + count ≤ b.bytes.length := by
  simp [range?]

theorem range?_bytes {start count : Nat} {part : Bytes} (h : b.range? start count = some part) :
    (b.bytes.drop start).take count = part := by
  rw [range?] at h
  split at h
  · exact Option.some.inj h
  · cases h

/-- A sum that is no size lies behind every buffer. -/
theorem slice?_eq (hsize : b.bytes.length < 2 ^ 64) (start count : Nat) :
    b.slice? start count = b.range? start count := by
  by_cases h : start + count < 2 ^ 64
  · rw [slice?, offset?_eq, if_pos h]
    rfl
  · rw [slice?, offset?_eq, if_neg h, range?_none (by omega)]
    rfl

theorem keyAt_eq (hsize : b.bytes.length < 2 ^ 64) (start : Nat) :
    b.keyAt start = keyIn (b.range? start 32) := by
  rw [keyAt, slice?_eq hsize, keyIn]

theorem numberAt_eq (hsize : b.bytes.length < 2 ^ 64) (start : Nat) :
    b.numberAt start = numberIn (b.range? start 8) := by
  rw [numberAt, slice?_eq hsize, numberIn]

theorem declaredLength_eq (hsize : b.bytes.length < 2 ^ 64) (h : 48 ≤ b.bytes.length) :
    b.declaredLength = b.storedLength := by
  rw [declaredLength, numberAt_eq hsize, range?, if_pos h]
  rfl

theorem dataEnd?_cases (hsize : b.bytes.length < 2 ^ 64) :
    b.dataEnd? = some (48 + b.storedLength) ∨
      b.dataEnd? = none ∧ b.bytes.length < 48 + b.storedLength := by
  by_cases h : b.bytes.length < 48
  · exact .inr ⟨if_pos h, by omega⟩
  · have hlength := declaredLength_eq hsize (Nat.not_lt.mp h)
    by_cases hend : 48 + b.storedLength < 2 ^ 64
    · left
      rw [dataEnd?, dataStart, if_neg h, hlength, offset?_eq, if_pos hend]
    · refine .inr ⟨?_, by omega⟩
      rw [dataEnd?, dataStart, if_neg h, hlength, offset?_eq, if_neg hend]

theorem behindData?_cases (hsize : b.bytes.length < 2 ^ 64) (n : Nat) :
    b.dataEnd?.bind (offset? · n) = some (48 + b.storedLength + n) ∨
      b.dataEnd?.bind (offset? · n) = none ∧ b.bytes.length < 48 + b.storedLength + n := by
  rcases dataEnd?_cases hsize with h | ⟨h, hlen⟩
  · by_cases hend : 48 + b.storedLength + n < 2 ^ 64
    · left
      rw [h, Option.bind_some, offset?_eq, if_pos hend]
    · refine .inr ⟨?_, by omega⟩
      rw [h, Option.bind_some, offset?_eq, if_neg hend]
  · exact .inr ⟨by rw [h]; rfl, by omega⟩

theorem data_eq (hsize : b.bytes.length < 2 ^ 64) :
    b.data = (b.range? 48 b.storedLength).getD [] := by
  rcases dataEnd?_cases hsize with h | ⟨h, hlen⟩
  · rw [data, h, Option.bind_some, slice?_eq hsize, dataStart, Nat.add_sub_cancel_left]
  · rw [data, h, range?_none hlen]
    rfl

theorem owner_eq (hsize : b.bytes.length < 2 ^ 64) :
    b.owner = keyIn (b.range? (48 + b.storedLength) 32) := by
  rcases dataEnd?_cases hsize with h | ⟨h, hlen⟩
  · rw [owner, h, Option.map_some, keyAt_eq hsize]
    rfl
  · rw [owner, h, range?_none (by omega)]
    rfl

theorem range?_one (b : AccountBuffer) (i : Nat) :
    b.range? i 1 = b.bytes[i]?.map fun byte => [byte] := by
  by_cases h : i < b.bytes.length
  · rw [range?, if_pos (Nat.succ_le_of_lt h), List.getElem?_eq_getElem h,
      List.drop_eq_getElem_cons h]
    rfl
  · rw [range?_none (by omega), List.getElem?_eq_none (by omega)]
    rfl

theorem executable_eq (hsize : b.bytes.length < 2 ^ 64) :
    b.executable = (b.range? (80 + b.storedLength) 1).any (· != [0]) := by
  rcases behindData?_cases hsize 32 with h | ⟨h, hlen⟩
  · have hstart : 48 + b.storedLength + 32 = 80 + b.storedLength := by omega
    rw [executable, h, Option.bind_some, hstart, range?_one]
    cases b.bytes[80 + b.storedLength]? with
    | none => rfl
    | some byte => simp [bne]
  · rw [executable, h, range?_none (by omega)]
    rfl

theorem rentEpoch_eq (hsize : b.bytes.length < 2 ^ 64) :
    b.rentEpoch = numberIn (b.range? (81 + b.storedLength) 8) := by
  rcases behindData?_cases hsize 33 with h | ⟨h, hlen⟩
  · have hstart : 48 + b.storedLength + 33 = 81 + b.storedLength := by omega
    rw [rentEpoch, h, Option.map_some, numberAt_eq hsize, hstart]
    rfl
  · rw [rentEpoch, h, range?_none (by omega)]
    rfl

theorem isComplete_eq (hsize : b.bytes.length < 2 ^ 64) :
    b.isComplete = decide (89 + b.storedLength ≤ b.bytes.length) := by
  rcases behindData?_cases hsize 41 with h | ⟨h, hlen⟩
  · have hstart : 48 + b.storedLength + 41 = 89 + b.storedLength := by omega
    rw [isComplete, h, hstart]
    rfl
  · rw [isComplete, h, decide_eq_false (by omega)]
    rfl

theorem exact (hsize : b.bytes.length < 2 ^ 64) : b.Exact where
  key := keyAt_eq hsize 0
  lamports := numberAt_eq hsize 32
  declaredLength := numberAt_eq hsize 40
  data := data_eq hsize
  owner := owner_eq hsize
  executable := executable_eq hsize
  rentEpoch := rentEpoch_eq hsize
  isComplete := isComplete_eq hsize

theorem number_bytes {start : Nat} (h : start + 8 ≤ b.bytes.length) :
    Bytes.ofNat 8 (numberIn (b.range? start 8)) = (b.bytes.drop start).take 8 := by
  have hlength : ((b.bytes.drop start).take 8).length = 8 := by
    rw [List.length_take, List.length_drop]
    omega
  have hbytes := Bytes.ofNat_toNat ((b.bytes.drop start).take 8)
  rw [range?, if_pos h]
  rwa [hlength] at hbytes

theorem key_bytes {start : Nat} (h : start + 32 ≤ b.bytes.length) :
    (keyIn (b.range? start 32)).bytes = (b.bytes.drop start).take 32 := by
  have hlength : ((b.bytes.drop start).take 32).length = 32 := by
    rw [List.length_take, List.length_drop]
    omega
  rw [range?, if_pos h, keyIn, Option.bind_some, AccountKey.ofBytes?, dif_pos hlength]
  rfl

/-- The fields of a complete account stand one behind the other at the start of the buffer. -/
theorem laid_out (hsize : b.bytes.length < 2 ^ 64) (h : 89 + b.storedLength ≤ b.bytes.length) :
    ∃ flag : UInt8, (flag ≠ 0 ↔ b.executable = true) ∧
      b.bytes.take (89 + b.storedLength) =
        b.key.bytes ++ Bytes.ofNat 8 b.lamports ++ Bytes.ofNat 8 b.declaredLength ++ b.data ++
          b.owner.bytes ++ [flag] ++ Bytes.ofNat 8 b.rentEpoch := by
  have he := exact hsize
  have hflag : 80 + b.storedLength < b.bytes.length := by omega
  refine ⟨b.bytes[80 + b.storedLength], ?_, ?_⟩
  · rw [he.executable, range?_one, List.getElem?_eq_getElem hflag]
    simp
  · have hflagBytes : (b.bytes.drop (80 + b.storedLength)).take 1 =
        [b.bytes[80 + b.storedLength]] := by
      rw [List.drop_eq_getElem_cons hflag]
      rfl
    have hsum : 89 + b.storedLength = 32 + 8 + 8 + b.storedLength + 32 + 1 + 8 := by omega
    have hflagStart : 48 + b.storedLength + 32 = 80 + b.storedLength := by omega
    have hepochStart : 80 + b.storedLength + 1 = 81 + b.storedLength := by omega
    rw [he.key, he.lamports, he.declaredLength, he.data, he.owner, he.rentEpoch,
      key_bytes (by omega), key_bytes (by omega), number_bytes (by omega), number_bytes (by omega),
      number_bytes (by omega), range?, if_pos (by omega), hsum]
    repeat rw [List.take_add]
    simp only [Nat.reduceAdd, hflagStart, hepochStart, hflagBytes, List.drop_zero,
      Option.getD_some]

/-- No field behind the data is in a buffer that ends before the data does. -/
theorem beyond (hsize : b.bytes.length < 2 ^ 64) (h : b.bytes.length < 48 + b.storedLength) :
    b.data = [] ∧ b.owner = .zero ∧ b.executable = false ∧ b.rentEpoch = 0 := by
  have he := exact hsize
  rw [he.data, he.owner, he.executable, he.rentEpoch, range?_none h, range?_none (by omega),
    range?_none (by omega), range?_none (by omega)]
  exact ⟨rfl, rfl, rfl, rfl⟩

/-- An account buffer of any bytes answers as if offsets were unbounded. It is complete when the
buffer reaches the end of the last field, and then its fields, laid out in order, are the bytes that
it starts with; when the stored length takes an offset past all sizes, nothing behind that length is
there. -/
theorem exact_on_any_bytes (bs : Bytes) (hsize : bs.length < 2 ^ 63) :
    let b : AccountBuffer := ⟨bs⟩
    b.Exact ∧
    (b.isComplete = true ↔ 48 ≤ bs.length ∧ 89 + b.storedLength ≤ bs.length) ∧
    (b.isComplete = true →
      ∃ flag : UInt8, (flag ≠ 0 ↔ b.executable = true) ∧
        bs.take (89 + b.storedLength) =
          b.key.bytes ++ Bytes.ofNat 8 b.lamports ++ Bytes.ofNat 8 b.declaredLength ++ b.data ++
            b.owner.bytes ++ [flag] ++ Bytes.ofNat 8 b.rentEpoch) ∧
    (2 ^ 64 ≤ 89 + b.storedLength →
      b.data = [] ∧ b.owner = .zero ∧ b.executable = false ∧ b.rentEpoch = 0) := by
  intro b
  have hbytes : b.bytes.length < 2 ^ 63 := hsize
  have hsize' : b.bytes.length < 2 ^ 64 := by omega
  have hcomplete : b.isComplete = true ↔ 89 + b.storedLength ≤ bs.length := by
    rw [isComplete_eq hsize', decide_eq_true_iff]
  refine ⟨exact hsize', ?_, ?_, ?_⟩
  · rw [hcomplete]
    omega
  · intro h
    exact laid_out hsize' (hcomplete.mp h)
  · intro h
    exact beyond hsize' (by omega)

/-- An account with a byte behind it, whose executable flag is neither zero nor one, and a buffer
whose stored length takes only the last of the offsets past all sizes. -/
theorem exact_on_any_bytes_odd :
    let whole : AccountBuffer := ⟨List.replicate 32 1 ++ [3, 0, 0, 0, 0, 0, 0, 0] ++
      [1, 0, 0, 0, 0, 0, 0, 0] ++ [9] ++ List.replicate 32 2 ++ [7] ++ List.replicate 8 0 ++ [5]⟩
    let wrapping : AccountBuffer := ⟨List.replicate 40 1 ++
      [171, 255, 255, 255, 255, 255, 255, 255] ++ List.replicate 48 1⟩
    (whole.bytes.length < 2 ^ 63 ∧ whole.isComplete = true ∧ whole.executable = true ∧
      ∃ flag : UInt8, flag ≠ 0 ∧ whole.bytes.take 90 =
        whole.key.bytes ++ Bytes.ofNat 8 whole.lamports ++ Bytes.ofNat 8 whole.declaredLength ++
          whole.data ++ whole.owner.bytes ++ [flag] ++ Bytes.ofNat 8 whole.rentEpoch) ∧
    wrapping.bytes.length < 2 ^ 63 ∧ 81 + wrapping.storedLength < 2 ^ 64 ∧
      2 ^ 64 ≤ 89 + wrapping.storedLength ∧ wrapping.isComplete = false ∧
      wrapping.data = [] ∧ wrapping.owner = .zero ∧ wrapping.executable = false ∧
      wrapping.rentEpoch = 0 := by
  intro whole wrapping
  have hwhole : whole.bytes.length < 2 ^ 63 := by decide
  have hwrapping : wrapping.bytes.length < 2 ^ 63 := by decide
  have hbeyond : 2 ^ 64 ≤ 89 + wrapping.storedLength := by decide
  obtain ⟨-, hcomplete, hlaid, -⟩ := exact_on_any_bytes whole.bytes hwhole
  obtain ⟨-, hincomplete, -, hnothing⟩ := exact_on_any_bytes wrapping.bytes hwrapping
  have hthere : whole.isComplete = true := hcomplete.mpr (by decide)
  have hexecutable : whole.executable = true := by decide
  obtain ⟨flag, hflag, hbytes⟩ := hlaid hthere
  refine ⟨⟨hwhole, hthere, hexecutable, flag, hflag.mpr hexecutable, hbytes⟩, hwrapping, by decide,
    hbeyond, ?_, hnothing hbeyond⟩
  rw [Bool.eq_false_iff]
  intro h
  exact absurd (hincomplete.mp h).2 (by decide)

end AccountBuffer

end TaggedPayload
