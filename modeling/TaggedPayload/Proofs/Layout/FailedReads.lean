import TaggedPayload.Proofs.Layout.FieldReading

/-!
# What a failed read takes

A read fails when fewer bytes are left than its next part needs, or when the bytes it took stand for
nothing. A part that is too short takes no bytes, so the cursor then stands where bytes are missing.
With what a successful read takes this is all that a read can do, and each outcome occurs exactly
under its condition.
-/

set_option autoImplicit false

namespace TaggedPayload

namespace Cursor

variable {c c' : Cursor} {e : ReadError}

theorem Took.nil (c : Cursor) : c.Took [] c := ⟨rfl, rfl⟩

/-- What a read does with its own bytes it does wherever they were taken. -/
theorem Took.written {β : Type} {bs : Bytes} {r : Except ReadError β}
    {read : Cursor → Except ReadError β × Cursor} (h : c.Took bs c')
    (hread : ∀ position rest,
      read ⟨position, bs ++ rest⟩ = (r, ⟨position + bs.length, rest⟩)) :
    read c = (r, c') := by
  obtain ⟨position, rest⟩ := c
  obtain ⟨position', rest'⟩ := c'
  obtain ⟨hrest, hposition⟩ := h
  dsimp only at hrest hposition
  rw [hrest, hposition, hread]

def Short (c : Cursor) (n : Nat) (e : ReadError) : Prop :=
  c.remaining < n ∧ e = .unexpectedEnd c.position n c.remaining

theorem take_error_iff (n : Nat) :
    c.take n = (.error e, c') ↔ c' = c ∧ c.Short n e := by
  by_cases h : n ≤ c.rest.length
  · simp [take, h, Short, remaining]
  · simp [take, h, Short, remaining, Nat.lt_of_not_le h, eq_comm, and_comm]

theorem map_error_iff {α β : Type} (read : Except ReadError α × Cursor) (f : α → β) :
    (read.1.map f, read.2) = (.error e, c') ↔ read = (.error e, c') := by
  obtain ⟨_ | _, _⟩ := read <;> simp [Except.map]

theorem unsigned_error_iff (w : Nat) :
    c.unsigned w = (.error e, c') ↔ c' = c ∧ c.Short w e :=
  (map_error_iff (c.take w) Bytes.toNat).trans (take_error_iff w)

theorem signed_error_iff (w : Nat) :
    c.signed w = (.error e, c') ↔ c' = c ∧ c.Short w e :=
  (map_error_iff (c.take w) Bytes.toInt).trans (take_error_iff w)

theorem key_error_iff : c.key = (.error e, c') ↔ c' = c ∧ c.Short 32 e := by
  by_cases h : 32 ≤ c.rest.length
  · simp [key, h, Short, remaining]
  · simp [key, h, Short, remaining, Nat.lt_of_not_le h, eq_comm, and_comm]

theorem bool_taken (b : UInt8) (h : c.take 1 = (.ok [b], c')) :
    c.bool = (if b = 0 then .ok false else if b = 1 then .ok true
      else .error (.badBool c.position b), c') := by
  rw [bool, h]
  by_cases h0 : b = 0
  · subst h0; rfl
  by_cases h1 : b = 1
  · subst h1; rfl
  simp [h0, h1]

theorem bool_error_iff :
    c.bool = (.error e, c') ↔ (c' = c ∧ c.Short 1 e) ∨
      ∃ b : UInt8, b ≠ 0 ∧ b ≠ 1 ∧ c.Took [b] c' ∧ e = .badBool c.position b := by
  constructor
  · intro h
    rcases ht : c.take 1 with ⟨_ | bs, c₁⟩
    · rw [bool, ht] at h
      cases h
      exact .inl ((take_error_iff 1).mp ht)
    · obtain ⟨hlen, htook⟩ := take_ok 1 c c₁ bs ht
      obtain ⟨b, rfl⟩ := List.length_eq_one_iff.mp hlen
      rw [bool_taken b ht] at h
      obtain ⟨he, rfl⟩ := Prod.mk.inj h
      by_cases h0 : b = 0
      · simp [h0] at he
      by_cases h1 : b = 1
      · simp [h1] at he
      rw [if_neg h0, if_neg h1] at he
      exact .inr ⟨b, h0, h1, htook, (Except.error.inj he).symm⟩
  · rintro (h | ⟨b, h0, h1, htook, rfl⟩)
    · rw [bool, (take_error_iff 1).mpr h]
    · rw [bool_taken b (htook.written fun position rest => take_written position [b] rest),
        if_neg h0, if_neg h1]

/-- The length is cut off, or the bytes that it announces are. -/
def BlockFails (c : Cursor) (e : ReadError) (c' : Cursor) : Prop :=
  (c' = c ∧ c.Short 4 e) ∨ ∃ n < 2 ^ 32, c.Took (Bytes.ofNat 4 n) c' ∧ c'.Short n e

theorem block_error_iff : c.block = (.error e, c') ↔ c.BlockFails e c' := by
  constructor
  · intro h
    rw [block] at h
    rcases hn : c.unsigned 4 with ⟨_ | n, c₁⟩
    · rw [hn] at h
      cases h
      exact .inl ((unsigned_error_iff 4).mp hn)
    · rw [hn] at h
      obtain ⟨hlt, htook⟩ := unsigned_ok 4 n c c₁ hn
      obtain ⟨rfl, hshort⟩ := (take_error_iff n).mp h
      exact .inr ⟨n, hlt, htook, hshort⟩
  · rintro (h | ⟨n, hlt, htook, hshort⟩)
    · rw [block, (unsigned_error_iff 4).mpr h]
    · have hn : c.unsigned 4 = (.ok n, c') :=
        htook.written fun position rest => unsigned_written position 4 n rest hlt
      rw [block, hn]
      exact (take_error_iff n).mpr ⟨rfl, hshort⟩

theorem BlockFails.short (h : c.BlockFails e c') : ∃ n bs, c.Took bs c' ∧ c'.Short n e := by
  obtain ⟨rfl, hshort⟩ | ⟨n, -, htook, hshort⟩ := h
  · exact ⟨4, [], .nil c', hshort⟩
  · exact ⟨n, _, htook, hshort⟩

theorem text_error_iff :
    c.text = (.error e, c') ↔ c.BlockFails e c' ∨
      ∃ bs, bs.length < 2 ^ 32 ∧ (∀ s, Text.utf8Of s ≠ bs) ∧ c.Took (FieldType.blockOf bs) c' ∧
        e = .badText c.position := by
  constructor
  · intro h
    rw [text] at h
    rcases hb : c.block with ⟨_ | bs, c₁⟩
    · rw [hb] at h
      cases h
      exact .inl (block_error_iff.mp hb)
    · rw [hb] at h
      obtain ⟨hlt, htook⟩ := block_ok bs c c₁ hb
      obtain ⟨he, rfl⟩ := Prod.mk.inj h
      split at he
      · cases he
      · next fault hread =>
        refine .inr ⟨bs, hlt, ?_, htook, (Except.error.inj he).symm⟩
        rintro s rfl
        rw [Text.readUtf8_utf8Of] at hread
        cases hread
  · rintro (h | ⟨bs, hlt, hbad, htook, rfl⟩)
    · rw [text, block_error_iff.mpr h]
    · have hb : c.block = (.ok bs, c') :=
        htook.written fun position rest => block_written position bs rest hlt
      rw [text, hb]
      dsimp only
      split
      · next s hread => exact absurd (Text.utf8Of_of_readUtf8 bs s hread) (hbad s)
      · rfl

end Cursor

namespace FieldType

variable {c c' : Cursor}

/-- How a read of a field fails: the cursor before it, the error, the cursor after it. -/
def Fails : FieldType → Cursor → ReadError → Cursor → Prop
  | unsigned w, c, e, c' => c' = c ∧ c.Short w.size e
  | signed w, c, e, c' => c' = c ∧ c.Short w.size e
  | bool, c, e, c' => (c' = c ∧ c.Short 1 e) ∨
      ∃ b : UInt8, b ≠ 0 ∧ b ≠ 1 ∧ c.Took [b] c' ∧ e = .badBool c.position b
  | key, c, e, c' => c' = c ∧ c.Short 32 e
  | text, c, e, c' => c.BlockFails e c' ∨
      ∃ bs, bs.length < 2 ^ 32 ∧ (∀ s, Text.utf8Of s ≠ bs) ∧ c.Took (blockOf bs) c' ∧
        e = .badText c.position
  | block, c, e, c' => c.BlockFails e c'
  | fixed n, c, e, c' => c' = c ∧ c.Short n e

/-- Bytes are missing where the cursor stands afterwards, or those it took stand for nothing. -/
theorem Fails.cases {ty : FieldType} {e : ReadError} (h : ty.Fails c e c') :
    (∃ n bs, c.Took bs c' ∧ c'.Short n e) ∨
      (∃ b : UInt8, b ≠ 0 ∧ b ≠ 1 ∧ ty = bool ∧ c.Took [b] c' ∧ e = .badBool c.position b) ∨
      ∃ bs, bs.length < 2 ^ 32 ∧ (∀ s, Text.utf8Of s ≠ bs) ∧ ty = text ∧
        c.Took (blockOf bs) c' ∧ e = .badText c.position := by
  have hstays {n : Nat} (h : c' = c ∧ c.Short n e) : ∃ n bs, c.Took bs c' ∧ c'.Short n e := by
    obtain ⟨rfl, hshort⟩ := h
    exact ⟨n, [], .nil c', hshort⟩
  cases ty with
  | unsigned w => exact .inl (hstays h)
  | signed w => exact .inl (hstays h)
  | key => exact .inl (hstays h)
  | fixed n => exact .inl (hstays h)
  | block => exact .inl (Cursor.BlockFails.short h)
  | bool =>
    obtain hshort | ⟨b, h0, h1, htook, he⟩ := h
    · exact .inl (hstays hshort)
    · exact .inr (.inl ⟨b, h0, h1, rfl, htook, he⟩)
  | text =>
    obtain hblock | ⟨bs, hlt, hbad, htook, he⟩ := h
    · exact .inl hblock.short
    · exact .inr (.inr ⟨bs, hlt, hbad, rfl, htook, he⟩)

theorem read_error_iff (ty : FieldType) (e : ReadError) :
    ty.read c = (.error e, c') ↔ ty.Fails c e c' := by
  cases ty with
  | unsigned w => exact (Cursor.map_error_iff _ _).trans (Cursor.unsigned_error_iff w.size)
  | signed w => exact (Cursor.map_error_iff _ _).trans (Cursor.signed_error_iff w.size)
  | bool => exact (Cursor.map_error_iff _ _).trans Cursor.bool_error_iff
  | key => exact (Cursor.map_error_iff _ _).trans Cursor.key_error_iff
  | text => exact (Cursor.map_error_iff _ _).trans Cursor.text_error_iff
  | block => exact (Cursor.map_error_iff _ _).trans Cursor.block_error_iff
  | fixed n => exact (Cursor.map_error_iff _ _).trans (Cursor.take_error_iff n)

theorem read_ok_iff (ty : FieldType) (v : Value) :
    ty.read c = (.ok v, c') ↔ ty.Fits v ∧ ∃ bs, ty.encode v = some bs ∧ c.Took bs c' := by
  constructor
  · exact read_ok ty c c' v
  · rintro ⟨hfit, bs, hbs, htook⟩
    obtain ⟨bs', hbs', hread⟩ := read_encode ty v hfit
    obtain rfl : bs' = bs := Option.some.inj (hbs'.symm.trans hbs)
    exact htook.written hread

end FieldType

end TaggedPayload
