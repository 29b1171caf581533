import TaggedPayload.AccountBuffer
import TaggedPayload.Proofs.Layout.FailedReads

/-!
# Reading by offsets

A reader may keep the whole buffer and an offset into it. It then subtracts offsets, adds to them
and cuts slices, and each of these can go wrong: a difference below zero, a sum that is no size, a
slice that leaves the buffer. A read by offsets has no outcome when that happens. It never does:
over any sequence of reads the offset is the position of the cursor, the cursor's bytes are those
behind the offset, and the outcomes are the same.
-/

set_option autoImplicit false

namespace TaggedPayload

/-! ## Reads that may go wrong -/

namespace OffsetRead

/-- The difference of two offsets, when it is not below zero. -/
def difference? (m n : Nat) : Option Nat :=
  if n ≤ m then some (m - n) else none

variable (buffer : Bytes) (position : Nat)

/-- The bytes between two offsets, when they are in order and in the buffer. -/
def slice? (start stop : Nat) : Option Bytes :=
  if start ≤ stop ∧ stop ≤ buffer.length then some ((buffer.drop start).take (stop - start))
  else none

def take (n : Nat) : Option (Except ReadError Bytes × Nat) := do
  let available ← difference? buffer.length position
  if available < n then
    return (.error (.unexpectedEnd position n available), position)
  else
    let stop ← AccountBuffer.offset? position n
    let bs ← slice? buffer position stop
    return (.ok bs, stop)

def unsigned (width : Nat) : Option (Except ReadError Nat × Nat) := do
  let (r, stop) ← take buffer position width
  return (r.map Bytes.toNat, stop)

def signed (width : Nat) : Option (Except ReadError Int × Nat) := do
  let (r, stop) ← take buffer position width
  return (r.map Bytes.toInt, stop)

def bool : Option (Except ReadError Bool × Nat) := do
  match ← unsigned buffer position 1 with
  | (.ok n, stop) =>
    if n = 0 then return (.ok false, stop)
    else if n = 1 then return (.ok true, stop)
    else return (.error (.badBool position (UInt8.ofNat n)), stop)
  | (.error e, stop) => return (.error e, stop)

def key : Option (Except ReadError AccountKey × Nat) := do
  match ← take buffer position 32 with
  | (.ok bs, stop) =>
    let k ← AccountKey.ofBytes? bs
    return (.ok k, stop)
  | (.error e, stop) => return (.error e, stop)

def block : Option (Except ReadError Bytes × Nat) := do
  match ← unsigned buffer position 4 with
  | (.ok n, stop) => take buffer stop n
  | (.error e, stop) => return (.error e, stop)

def text : Option (Except ReadError String × Nat) := do
  match ← block buffer position with
  | (.ok bs, stop) =>
    match Text.readUtf8 bs with
    | .ok s => return (.ok s, stop)
    | .error _ => return (.error (.badText position), stop)
  | (.error e, stop) => return (.error e, stop)

def field : FieldType → Option (Except ReadError Value × Nat)
  | .unsigned w => (unsigned buffer position w.size).map fun p => (p.1.map .uint, p.2)
  | .signed w => (signed buffer position w.size).map fun p => (p.1.map .int, p.2)
  | .bool => (bool buffer position).map fun p => (p.1.map .bool, p.2)
  | .key => (key buffer position).map fun p => (p.1.map .ofKey, p.2)
  | .text => (text buffer position).map fun p => (p.1.map .text, p.2)
  | .block => (block buffer position).map fun p => (p.1.map .bytes, p.2)
  | .fixed n => (take buffer position n).map fun p => (p.1.map .bytes, p.2)

def each : List FieldType → Nat → Option (List (Except ReadError Value) × Nat)
  | [], position => some ([], position)
  | ty :: tys, position => do
    let (r, stop) ← field buffer position ty
    let (rs, last) ← each tys stop
    return (r :: rs, last)

end OffsetRead

/-- Reads one after the other, going on after failures. -/
def readEach : List FieldType → Cursor → List (Except ReadError Value) × Cursor
  | [], c => ([], c)
  | ty :: tys, c =>
    ((ty.read c).1 :: (readEach tys (ty.read c).2).1, (readEach tys (ty.read c).2).2)

/-! ## Cursors within a buffer -/

namespace Cursor

variable {buffer : Bytes} {c c' : Cursor}

/-- The cursor's bytes are those of the buffer behind its position. -/
def Within (buffer : Bytes) (c : Cursor) : Prop :=
  c.position ≤ buffer.length ∧ c.rest = buffer.drop c.position

theorem start_within (buffer : Bytes) : (start buffer).Within buffer :=
  ⟨Nat.zero_le _, rfl⟩

theorem Within.remaining_eq (h : c.Within buffer) :
    c.remaining = buffer.length - c.position := by
  rw [remaining, h.2, List.length_drop]

theorem Within.account (h : c.Within buffer) : c.position + c.remaining = buffer.length := by
  rw [h.remaining_eq]
  exact Nat.add_sub_cancel' h.1

theorem Took.within {bs : Bytes} (h : c.Took bs c') (hc : c.Within buffer) :
    c'.Within buffer := by
  obtain ⟨hrest, hposition⟩ := h
  obtain ⟨hle, hdrop⟩ := hc
  have hlength := congrArg List.length (hdrop.symm.trans hrest)
  rw [List.length_drop, List.length_append] at hlength
  refine ⟨by omega, ?_⟩
  rw [hposition, ← List.drop_drop, ← hdrop, hrest, List.drop_left]

theorem Took.bytes {bs : Bytes} (h : c.Took bs c') (hc : c.Within buffer) :
    bs = (buffer.drop c.position).take (c'.position - c.position) := by
  rw [← hc.2, h.1, h.2, Nat.add_sub_cancel_left, List.take_left]

theorem Took.position_le {bs : Bytes} (h : c.Took bs c') : c.position ≤ c'.position := by
  rw [h.2]
  exact Nat.le_add_right ..

end Cursor

namespace FieldType

variable {c c' : Cursor}

theorem Fails.took {ty : FieldType} {e : ReadError} (h : ty.Fails c e c') :
    ∃ bs, c.Took bs c' := by
  obtain ⟨n, bs, htook, -⟩ | ⟨b, -, -, -, htook, -⟩ | ⟨bs, -, -, -, htook, -⟩ := h.cases
  · exact ⟨bs, htook⟩
  · exact ⟨_, htook⟩
  · exact ⟨_, htook⟩

/-- How far a failed read went, by its error. The length of a block stays read although the bytes it
announces are missing, and so do bytes that stand for nothing. -/
def Strays (ty : FieldType) (c : Cursor) (e : ReadError) (c' : Cursor) : Prop :=
  match e with
  | .unexpectedEnd .. => c'.position = c.position ∨
      (ty = block ∨ ty = text) ∧ c'.position = c.position + 4
  | .badBool offset _ => ty = bool ∧ offset = c.position ∧ c'.position = c.position + 1
  | .badText offset => ty = text ∧ offset = c.position ∧
      c'.position = c.position + (4 + Bytes.toNat (c.rest.take 4))

theorem strays_of_block {ty : FieldType} {e : ReadError} (hty : ty = block ∨ ty = text)
    (h : c.BlockFails e c') : ty.Strays c e c' := by
  obtain ⟨rfl, -, rfl⟩ | ⟨n, -, htook, -, rfl⟩ := h
  · exact .inl rfl
  · refine .inr ⟨hty, ?_⟩
    rw [htook.2, Bytes.length_ofNat]

theorem Fails.strays {ty : FieldType} {e : ReadError} (h : ty.Fails c e c') :
    ty.Strays c e c' := by
  have hstays {n : Nat} (h : c' = c ∧ c.Short n e) : ty.Strays c e c' := by
    obtain ⟨rfl, -, rfl⟩ := h
    exact .inl rfl
  cases ty with
  | unsigned w => exact hstays h
  | signed w => exact hstays h
  | key => exact hstays h
  | fixed n => exact hstays h
  | block => exact strays_of_block (.inl rfl) h
  | bool =>
    obtain hshort | ⟨b, -, -, htook, rfl⟩ := h
    · exact hstays hshort
    · exact ⟨rfl, rfl, htook.2⟩
  | text =>
    obtain hblock | ⟨bs, hlt, -, htook, rfl⟩ := h
    · exact strays_of_block (.inr rfl) hblock
    · have hannounced : Bytes.toNat (c.rest.take 4) = bs.length := by
        rw [htook.1, blockOf, List.append_assoc, List.take_left' (Bytes.length_ofNat 4 _),
          Bytes.toNat_ofNat 4 _ hlt]
      refine ⟨rfl, rfl, ?_⟩
      rw [hannounced, htook.2, blockOf, List.length_append, Bytes.length_ofNat]

theorem Fails.missing {ty : FieldType} {offset needed available : Nat}
    (h : ty.Fails c (.unexpectedEnd offset needed available) c') :
    offset = c'.position ∧ available = c'.remaining ∧ available < needed := by
  obtain ⟨n, bs, -, hlt, he⟩ | ⟨b, -, -, -, -, he⟩ | ⟨bs, -, -, -, -, he⟩ := h.cases
  · cases he
    exact ⟨rfl, rfl, hlt⟩
  · cases he
  · cases he

/-- A read moves over some bytes, whatever its outcome. -/
theorem read_took (ty : FieldType) (c : Cursor) : ∃ bs, c.Took bs (ty.read c).2 := by
  rcases h : ty.read c with ⟨e | v, c'⟩
  · exact ((ty.read_error_iff e).mp h).took
  · obtain ⟨-, bs, -, htook⟩ := (ty.read_ok_iff v).mp h
    exact ⟨bs, htook⟩

end FieldType

theorem readEach_within {buffer : Bytes} {c : Cursor} (hc : c.Within buffer)
    (tys : List FieldType) : (readEach tys c).2.Within buffer := by
  induction tys generalizing c with
  | nil => exact hc
  | cons ty tys ih =>
    obtain ⟨bs, htook⟩ := ty.read_took c
    exact ih (htook.within hc)

/-! ## Offsets and cursors -/

namespace OffsetRead

variable {buffer : Bytes} {c : Cursor}

theorem take_cursor (hsize : buffer.length < 2 ^ 64) (hc : c.Within buffer) (n : Nat) :
    take buffer c.position n = some ((c.take n).1, (c.take n).2.position) := by
  have hremaining := hc.remaining_eq
  obtain ⟨hle, hrest⟩ := hc
  have hdifference : difference? buffer.length c.position = some c.remaining := by
    rw [difference?, if_pos hle, hremaining]
  by_cases h : c.remaining < n
  · have hshort : c.take n = (.error (.unexpectedEnd c.position n c.remaining), c) :=
      (Cursor.take_error_iff n).mpr ⟨rfl, h, rfl⟩
    simp [take, hdifference, h, hshort]
  · have hn : n ≤ c.rest.length := Nat.not_lt.mp h
    have hstop : c.position + n < 2 ^ 64 := by omega
    have hsum : AccountBuffer.offset? c.position n = some (c.position + n) := if_pos hstop
    have hslice : slice? buffer c.position (c.position + n) = some (c.rest.take n) := by
      rw [slice?, if_pos ⟨by omega, by omega⟩, Nat.add_sub_cancel_left, hrest]
    simp [take, hdifference, h, hsum, hslice, Cursor.take, hn]

theorem unsigned_cursor (hsize : buffer.length < 2 ^ 64) (hc : c.Within buffer) (w : Nat) :
    unsigned buffer c.position w = some ((c.unsigned w).1, (c.unsigned w).2.position) := by
  rw [unsigned, take_cursor hsize hc]
  rfl

theorem signed_cursor (hsize : buffer.length < 2 ^ 64) (hc : c.Within buffer) (w : Nat) :
    signed buffer c.position w = some ((c.signed w).1, (c.signed w).2.position) := by
  rw [signed, take_cursor hsize hc]
  rfl

theorem bool_cursor (hsize : buffer.length < 2 ^ 64) (hc : c.Within buffer) :
    bool buffer c.position = some (c.bool.1, c.bool.2.position) := by
  rcases h : c.take 1 with ⟨e | bs, c'⟩
  · rw [bool, unsigned_cursor hsize hc, Cursor.unsigned, Cursor.bool, h]
    rfl
  · obtain ⟨hlen, -⟩ := Cursor.take_ok 1 c c' bs h
    obtain ⟨b, rfl⟩ := List.length_eq_one_iff.mp hlen
    have hn : c.unsigned 1 = (.ok b.toNat, c') := by
      rw [Cursor.unsigned, h]
      rfl
    have h0 : b.toNat = 0 ↔ b = 0 := by rw [← UInt8.toNat_inj]; rfl
    have h1 : b.toNat = 1 ↔ b = 1 := by rw [← UInt8.toNat_inj]; rfl
    rw [bool, unsigned_cursor hsize hc, hn, Cursor.bool_taken b h]
    by_cases hb0 : b = 0
    · simp [hb0]
    by_cases hb1 : b = 1
    · simp [hb1]
    · simp [h0, h1, hb0, hb1]

theorem key_cursor (hsize : buffer.length < 2 ^ 64) (hc : c.Within buffer) :
    key buffer c.position = some (c.key.1, c.key.2.position) := by
  rw [key, take_cursor hsize hc, Cursor.take, Cursor.key]
  by_cases h : 32 ≤ c.rest.length
  · simp [h, AccountKey.ofBytes?]
  · simp [h]

theorem block_cursor (hsize : buffer.length < 2 ^ 64) (hc : c.Within buffer) :
    block buffer c.position = some (c.block.1, c.block.2.position) := by
  rw [block, unsigned_cursor hsize hc, Cursor.block]
  rcases h : c.unsigned 4 with ⟨e | n, c'⟩
  · rfl
  · obtain ⟨-, htook⟩ := Cursor.unsigned_ok 4 n c c' h
    exact take_cursor hsize (htook.within hc) n

theorem text_cursor (hsize : buffer.length < 2 ^ 64) (hc : c.Within buffer) :
    text buffer c.position = some (c.text.1, c.text.2.position) := by
  rw [text, block_cursor hsize hc, Cursor.text]
  rcases h : c.block with ⟨e | bs, c'⟩
  · rfl
  · cases hread : Text.readUtf8 bs <;> simp [hread]

theorem field_cursor (hsize : buffer.length < 2 ^ 64) (hc : c.Within buffer) (ty : FieldType) :
    field buffer c.position ty = some ((ty.read c).1, (ty.read c).2.position) := by
  cases ty with
  | unsigned w => rw [field, unsigned_cursor hsize hc]; rfl
  | signed w => rw [field, signed_cursor hsize hc]; rfl
  | bool => rw [field, bool_cursor hsize hc]; rfl
  | key => rw [field, key_cursor hsize hc]; rfl
  | text => rw [field, text_cursor hsize hc]; rfl
  | block => rw [field, block_cursor hsize hc]; rfl
  | fixed n => rw [field, take_cursor hsize hc]; rfl

/-- Reading by offsets always has an outcome, and it is that of the cursor. -/
theorem each_cursor (hsize : buffer.length < 2 ^ 64) (hc : c.Within buffer)
    (tys : List FieldType) :
    each buffer tys c.position = some ((readEach tys c).1, (readEach tys c).2.position) := by
  induction tys generalizing c with
  | nil => rfl
  | cons ty tys ih =>
    obtain ⟨bs, htook⟩ := ty.read_took c
    rw [each, field_cursor hsize hc]
    simp [ih (htook.within hc), readEach]

end OffsetRead

structure SoundRead (buffer : Bytes) (ty : FieldType) (c : Cursor)
    (r : Except ReadError Value) (c' : Cursor) : Prop where
  /-- By offsets the read has an outcome: none of its sums and slices leaves its range. -/
  offsets : OffsetRead.field buffer c.position ty = some (r, c'.position)
  forward : c.position ≤ c'.position
  before : c.position + c.remaining = buffer.length
  after : c'.position + c'.remaining = buffer.length
  /-- A value that is read is written by just the bytes that the cursor went over. -/
  decoded : ∀ v, r = .ok v → ty.Fits v ∧
    ty.encode v = some ((buffer.drop c.position).take (c'.position - c.position))
  failed : ∀ e, r = .error e ↔ ty.Fails c e c'
  distance : ∀ e, r = .error e → ty.Strays c e c'
  /-- An early end names the place where bytes are missing and all that is left there. -/
  missing : ∀ offset needed available, r = .error (.unexpectedEnd offset needed available) →
    offset = c'.position ∧ offset + available = buffer.length ∧ available < needed

theorem read_sound {buffer : Bytes} {c : Cursor} (hsize : buffer.length < 2 ^ 64)
    (hc : c.Within buffer) (ty : FieldType) :
    SoundRead buffer ty c (ty.read c).1 (ty.read c).2 := by
  obtain ⟨taken, htaken⟩ := ty.read_took c
  have hc' := htaken.within hc
  have hfails (e : ReadError) : (ty.read c).1 = .error e ↔ ty.Fails c e (ty.read c).2 := by
    rw [← ty.read_error_iff]
    exact ⟨fun he => Prod.ext he rfl, fun he => congrArg Prod.fst he⟩
  refine ⟨OffsetRead.field_cursor hsize hc ty, htaken.position_le, hc.account, hc'.account, ?_,
    hfails, fun e he => ((hfails e).mp he).strays, ?_⟩
  · intro v hv
    have hread : ty.read c = (.ok v, (ty.read c).2) := Prod.ext hv rfl
    obtain ⟨hfit, bs, hbs, htook⟩ := (ty.read_ok_iff v).mp hread
    rw [hbs, ← htook.bytes hc]
    exact ⟨hfit, rfl⟩
  · intro offset needed available he
    obtain ⟨rfl, rfl, hlt⟩ := ((hfails _).mp he).missing
    exact ⟨rfl, hc'.account, hlt⟩

/-- Reads over whole runs. Any reads one after the other, failed ones included, have outcomes by
offsets, those of the cursor. Wherever they end, the next read is sound: the cursor never goes back,
its position and what remains make up the buffer, and a failed read goes exactly as far as its error
tells. -/
theorem reads_account_for_buffer (buffer : Bytes) (hsize : buffer.length < 2 ^ 64)
    (earlier : List FieldType) (ty : FieldType) :
    let c := (readEach earlier (.start buffer)).2
    OffsetRead.each buffer earlier 0 =
      some ((readEach earlier (.start buffer)).1, c.position) ∧
    SoundRead buffer ty c (ty.read c).1 (ty.read c).2 := by
  have hstart := Cursor.start_within buffer
  exact ⟨OffsetRead.each_cursor hsize hstart earlier,
    read_sound hsize (readEach_within hstart earlier) ty⟩

/-- A number that is cut off, a byte that is no truth value and a text whose length runs far past
the end leave one byte, which is still read. -/
theorem reads_account_for_buffer_hostile :
    let buffer : Bytes := [2, 0, 0, 0, 255, 7]
    let earlier : List FieldType := [.unsigned .eight, .bool]
    let c := (readEach earlier (.start buffer)).2
    let c' := (FieldType.text.read c).2
    buffer.length < 2 ^ 64 ∧ c.position = 1 ∧ c'.position = 5 ∧
      (FieldType.text.read c).1 = .error (.unexpectedEnd 5 4278190080 1) ∧
      FieldType.text.Fails c (.unexpectedEnd 5 4278190080 1) c' ∧ 5 + 1 = buffer.length ∧
      OffsetRead.each buffer (earlier ++ [.text]) 0 =
        some ((readEach (earlier ++ [.text]) (.start buffer)).1, 5) ∧
      ((FieldType.unsigned .one).read c').1 = .ok (.uint 7) ∧
      (FieldType.unsigned .one).encode (.uint 7) = some [7] := by
  intro buffer earlier c c'
  have hsize : buffer.length < 2 ^ 64 := by decide
  have htext : (FieldType.text.read c).1 = .error (.unexpectedEnd 5 4278190080 1) := rfl
  have hlast : ((FieldType.unsigned .one).read c').1 = .ok (.uint 7) := rfl
  obtain ⟨-, hfailed⟩ := reads_account_for_buffer buffer hsize earlier .text
  obtain ⟨hoffsets, hread⟩ :=
    reads_account_for_buffer buffer hsize (earlier ++ [.text]) (.unsigned .one)
  exact ⟨hsize, rfl, rfl, htext, (hfailed.failed _).mp htext, (hfailed.missing _ _ _ htext).2.1,
    hoffsets, hlast, (hread.decoded _ hlast).2⟩

end TaggedPayload
