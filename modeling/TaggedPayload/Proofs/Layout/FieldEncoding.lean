import Mathlib.Data.List.Forall2
import TaggedPayload.Layout.FieldType
import TaggedPayload.Proofs.Binary.LittleEndian
import TaggedPayload.Proofs.Text.KeyReading
import TaggedPayload.Proofs.Text.Utf8Reading

/-!
# Writing fields

The encoding that reading undoes. A field of a type holds the values of that type only; written one
behind the other, the values of a record are read back wherever the writing starts and whatever
follows it.
-/

set_option autoImplicit false

namespace TaggedPayload

namespace FieldType

def Fits : FieldType → Value → Prop
  | unsigned w, .uint n => n < 2 ^ w.bits
  | signed w, .int i => -(2 ^ (w.bits - 1) : Nat) ≤ i ∧ i < (2 ^ (w.bits - 1) : Nat)
  | bool, .bool _ => True
  | key, .key s => ∃ k : AccountKey, s = k.text
  | text, .text s => (Text.utf8Of s).length < 2 ^ 32
  | block, .bytes bs => bs.length < 2 ^ 32
  | fixed n, .bytes bs => bs.length = n
  | _, _ => False

def blockOf (bs : Bytes) : Bytes :=
  Bytes.ofNat 4 bs.length ++ bs

/-- The bytes of a value in a field; a value of another sort has none. -/
def encode : FieldType → Value → Option Bytes
  | unsigned w, .uint n => some (Bytes.ofNat w.size n)
  | signed w, .int i => some (Bytes.ofInt w.size i)
  | bool, .bool b => some [if b then 1 else 0]
  | key, .key s => (AccountKey.ofText s).toOption.map (·.bytes)
  | text, .text s => some (blockOf (Text.utf8Of s))
  | block, .bytes bs => some (blockOf bs)
  | fixed _, .bytes bs => some bs
  | _, _ => none

end FieldType

def FieldsFit (fs : List Field) (vs : List Value) : Prop :=
  List.Forall₂ (fun f v => f.2.Fits v) fs vs

def encodeFields : List Field → List Value → Option Bytes
  | [], [] => some []
  | (_, ty) :: fs, v :: vs => do return (← ty.encode v) ++ (← encodeFields fs vs)
  | _, _ => none

def named (fs : List Field) (vs : List Value) : List (String × Value) :=
  (fs.map (·.1)).zip vs

/-! ## Reading what was written -/

namespace Cursor

theorem take_written (position : Nat) (bs rest : Bytes) :
    take bs.length ⟨position, bs ++ rest⟩ = (.ok bs, ⟨position + bs.length, rest⟩) := by
  rw [take, if_pos (by simp), List.take_left, List.drop_left]

theorem unsigned_written (position w n : Nat) (rest : Bytes) (h : n < Bytes.span w) :
    unsigned w ⟨position, Bytes.ofNat w n ++ rest⟩ = (.ok n, ⟨position + w, rest⟩) := by
  have ht := take_written position (Bytes.ofNat w n) rest
  rw [Bytes.length_ofNat] at ht
  rw [unsigned, ht]
  exact congrArg (fun n => (Except.ok n, _)) (Bytes.toNat_ofNat w n h)

theorem signed_written (position w : Nat) (i : Int) (rest : Bytes)
    (hl : -(Bytes.span w : Int) ≤ 2 * i) (hu : 2 * i < Bytes.span w) :
    signed w ⟨position, Bytes.ofInt w i ++ rest⟩ = (.ok i, ⟨position + w, rest⟩) := by
  have ht := take_written position (Bytes.ofInt w i) rest
  rw [Bytes.length_ofInt] at ht
  rw [signed, ht]
  exact congrArg (fun i => (Except.ok i, _)) (Bytes.toInt_ofInt w i hl hu)

theorem bool_written (position : Nat) (b : Bool) (rest : Bytes) :
    bool ⟨position, [if b then 1 else 0] ++ rest⟩ = (.ok b, ⟨position + 1, rest⟩) := by
  cases b <;> rfl

theorem key_written (position : Nat) (k : AccountKey) (rest : Bytes) :
    key ⟨position, k.bytes ++ rest⟩ = (.ok k, ⟨position + k.bytes.length, rest⟩) := by
  have hk := k.length_bytes
  have hlen : 32 ≤ (k.bytes ++ rest).length := by simp [hk]
  have htake : (k.bytes ++ rest).take 32 = k.bytes := by rw [← hk, List.take_left]
  have hdrop : (k.bytes ++ rest).drop 32 = rest := by rw [← hk, List.drop_left]
  rw [key, dif_pos hlen, hdrop, hk]
  exact congrArg (fun k => (Except.ok k, _)) (AccountKey.ext htake)

theorem block_written (position : Nat) (bs rest : Bytes) (h : bs.length < 2 ^ 32) :
    block ⟨position, FieldType.blockOf bs ++ rest⟩ =
      (.ok bs, ⟨position + (FieldType.blockOf bs).length, rest⟩) := by
  rw [FieldType.blockOf, List.append_assoc, block, unsigned_written _ _ _ _ h]
  show take bs.length ⟨position + 4, bs ++ rest⟩ = _
  rw [take_written, List.length_append, Bytes.length_ofNat, Nat.add_assoc]

theorem text_written (position : Nat) (s : String) (rest : Bytes)
    (h : (Text.utf8Of s).length < 2 ^ 32) :
    text ⟨position, FieldType.blockOf (Text.utf8Of s) ++ rest⟩ =
      (.ok s, ⟨position + (FieldType.blockOf (Text.utf8Of s)).length, rest⟩) := by
  rw [text, block_written _ _ _ h]
  simp only [Text.readUtf8_utf8Of]

end Cursor

theorem unsigned_range (w : Width) : 2 ^ w.bits = Bytes.span w.size := by
  cases w <;> rfl

theorem signed_range (w : Width) : 2 * 2 ^ (w.bits - 1) = Bytes.span w.size := by
  cases w <;> rfl

/-- A value that fits a field has an encoding there, and reading takes exactly that. -/
theorem FieldType.read_encode (ty : FieldType) (v : Value) (h : ty.Fits v) :
    ∃ bs, ty.encode v = some bs ∧ ∀ position rest,
      ty.read ⟨position, bs ++ rest⟩ = (.ok v, ⟨position + bs.length, rest⟩) := by
  cases ty with
  | unsigned w =>
    cases v with
    | uint n =>
      refine ⟨_, rfl, fun position rest => ?_⟩
      rw [read, Cursor.unsigned_written _ _ _ _ (unsigned_range w ▸ h), Bytes.length_ofNat]
      rfl
    | _ => exact h.elim
  | signed w =>
    cases v with
    | int i =>
      refine ⟨_, rfl, fun position rest => ?_⟩
      obtain ⟨hl, hu⟩ : -(2 ^ (w.bits - 1) : Nat) ≤ i ∧ i < (2 ^ (w.bits - 1) : Nat) := h
      have hw := signed_range w
      rw [read, Cursor.signed_written _ _ _ _ (by omega) (by omega), Bytes.length_ofInt]
      rfl
    | _ => exact h.elim
  | bool =>
    cases v with
    | bool b =>
      refine ⟨_, rfl, fun position rest => ?_⟩
      rw [read, Cursor.bool_written]
      rfl
    | _ => exact h.elim
  | key =>
    cases v with
    | key s =>
      obtain ⟨k, rfl⟩ := h
      refine ⟨k.bytes, ?_, fun position rest => ?_⟩
      · rw [encode, AccountKey.ofText_text]
        rfl
      · rw [read, Cursor.key_written]
        rfl
    | _ => exact h.elim
  | text =>
    cases v with
    | text s =>
      refine ⟨_, rfl, fun position rest => ?_⟩
      rw [read, Cursor.text_written _ _ _ h]
      rfl
    | _ => exact h.elim
  | block =>
    cases v with
    | bytes bs =>
      refine ⟨_, rfl, fun position rest => ?_⟩
      rw [read, Cursor.block_written _ _ _ h]
      rfl
    | _ => exact h.elim
  | fixed n =>
    cases v with
    | bytes bs =>
      obtain rfl : bs.length = n := h
      refine ⟨_, rfl, fun position rest => ?_⟩
      rw [read, Cursor.take_written]
      rfl
    | _ => exact h.elim

/-- Fields are read back one behind the other, and the cursor ends where the writing ended. -/
theorem readFields_encode (fs : List Field) (vs : List Value) (h : FieldsFit fs vs) :
    ∃ bs, encodeFields fs vs = some bs ∧ ∀ position rest,
      readFields fs ⟨position, bs ++ rest⟩ =
        (.ok (named fs vs), ⟨position + bs.length, rest⟩) := by
  induction h with
  | nil => exact ⟨[], rfl, fun position rest => rfl⟩
  | @cons f v fs vs hv _ ih =>
    obtain ⟨first, hfirst, hread⟩ := FieldType.read_encode f.2 v hv
    obtain ⟨later, hlater, hreads⟩ := ih
    refine ⟨first ++ later, ?_, fun position rest => ?_⟩
    · rw [encodeFields, hfirst, hlater]
      rfl
    · rw [List.append_assoc, readFields, hread]
      simp only [hreads, List.length_append, Nat.add_assoc]
      rfl

/-- What follows the fields of a record does not change it. -/
theorem readRecord_encode (fs : List Field) (vs : List Value) (h : FieldsFit fs vs) :
    ∃ bs, encodeFields fs vs = some bs ∧ ∀ rest,
      readRecord fs (bs ++ rest) = .ok (.record (named fs vs)) := by
  obtain ⟨bs, hbs, hread⟩ := readFields_encode fs vs h
  refine ⟨bs, hbs, fun rest => ?_⟩
  rw [readRecord, Cursor.start, hread]
  rfl

end TaggedPayload
