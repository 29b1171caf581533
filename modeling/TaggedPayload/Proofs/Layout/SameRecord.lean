import TaggedPayload.Decoder.Shape
import TaggedPayload.Proofs.Layout.FailedReads

/-!
# Layout fields and record shapes

A field type and the shape of the same name store a value in the same bytes. So the fields of a
layout and a record of their shapes are read from the same payloads, as the same record; only the
reasons of a failure differ. Fields of a fixed width are read just if all their bytes are there, and
each value stands at an offset of its own.
-/

set_option autoImplicit false

namespace TaggedPayload

/-! ## Fields and shapes -/

/-- The shape that stores what the field stores; bytes without a length have none. -/
def FieldType.shape? : FieldType → Option Shape
  | unsigned w => some (.uint w)
  | signed w => some (.int w)
  | bool => some .bool
  | key => some .key
  | text => some .text
  | block => some .block
  | fixed _ => none

/-- Two reads that succeed together, with one value and the same bytes left, or fail together. -/
inductive SameOutcome {α : Type} :
    Except ReadError α × Cursor → Except ShapeFault (α × Bytes) → Prop
  | ok (x : α) (c : Cursor) : SameOutcome (.ok x, c) (.ok (x, c.rest))
  | error (e : ReadError) (c : Cursor) (fault : ShapeFault) :
    SameOutcome (.error e, c) (.error fault)

section

variable {α β γ : Type} {r : Except ReadError α × Cursor} {s : Except ShapeFault (α × Bytes)}

theorem SameOutcome.map (h : SameOutcome r s) (f : α → β) :
    SameOutcome (r.1.map f, r.2) (s >>= fun p => pure (f p.1, p.2)) := by
  cases h with
  | ok x c => exact .ok (f x) c
  | error e c fault => exact .error e c fault

theorem SameOutcome.map_map (h : SameOutcome r s) (f : α → β) (g : β → γ) :
    SameOutcome ((r.1.map f).map g, r.2) (s >>= fun p => pure (g (f p.1), p.2)) := by
  cases h with
  | ok x c => exact .ok (g (f x)) c
  | error e c fault => exact .error e c fault

end

theorem take_same (n : Nat) (c : Cursor) : SameOutcome (c.take n) (Shape.takeBytes n c.rest) := by
  rw [Cursor.take, Shape.takeBytes]
  by_cases h : n ≤ c.rest.length
  · rw [if_pos h, if_pos h]
    exact .ok (c.rest.take n) ⟨c.position + n, c.rest.drop n⟩
  · rw [if_neg h, if_neg h]
    exact .error _ c .tooShort

theorem block_same (c : Cursor) : SameOutcome c.block (Shape.takeBlock c.rest) := by
  have h := take_same 4 c
  rw [Cursor.block, Cursor.unsigned, Shape.takeBlock]
  generalize c.take 4 = r at h ⊢
  generalize Shape.takeBytes 4 c.rest = s at h ⊢
  cases h with
  | ok n c' => exact take_same n.toNat c'
  | error e c' fault => exact .error e c' fault

theorem bool_same (c : Cursor) : SameOutcome (FieldType.bool.read c) (Shape.bool.read c.rest) := by
  obtain ⟨position, _ | ⟨b, bs⟩⟩ := c
  · exact .error _ _ .tooShort
  · have hbool := Cursor.bool_taken b (Cursor.take_written position [b] bs)
    rw [List.singleton_append] at hbool
    rw [FieldType.read, hbool, Shape.read]
    by_cases h0 : b = 0
    · subst h0
      exact .ok (Value.bool false) _
    by_cases h1 : b = 1
    · subst h1
      exact .ok (Value.bool true) _
    simp only [if_neg h0, if_neg h1]
    exact .error _ _ (.badBool b)

theorem key_same (c : Cursor) : SameOutcome (FieldType.key.read c) (Shape.key.read c.rest) := by
  rw [FieldType.read, Cursor.key, Shape.read]
  by_cases h : 32 ≤ c.rest.length
  · rw [dif_pos h, dif_pos h]
    exact .ok _ ⟨c.position + 32, c.rest.drop 32⟩
  · rw [dif_neg h, dif_neg h]
    exact .error _ c .tooShort

theorem text_same (c : Cursor) : SameOutcome (FieldType.text.read c) (Shape.text.read c.rest) := by
  have h := block_same c
  rw [FieldType.read, Cursor.text, Shape.read]
  generalize c.block = r at h ⊢
  generalize Shape.takeBlock c.rest = s at h ⊢
  cases h with
  | error e c' fault => exact .error e c' fault
  | ok bs c' =>
    simp only [bind, Except.bind]
    cases Text.readUtf8 bs with
    | ok t => exact .ok (Value.text t) c'
    | error fault => exact .error _ c' (.badText fault)

theorem read_same (ty : FieldType) (shape : Shape) (h : ty.shape? = some shape) (c : Cursor) :
    SameOutcome (ty.read c) (shape.read c.rest) := by
  cases ty with
  | unsigned w =>
    cases h
    exact (take_same w.size c).map_map Bytes.toNat Value.uint
  | signed w =>
    cases h
    exact (take_same w.size c).map_map Bytes.toInt Value.int
  | bool =>
    cases h
    exact bool_same c
  | key =>
    cases h
    exact key_same c
  | text =>
    cases h
    exact text_same c
  | block =>
    cases h
    exact (block_same c).map Value.bytes
  | fixed n => cases h

def SameFields (fs : List Field) (shapes : List (String × Shape)) : Prop :=
  List.Forall₂ (fun f g => f.1 = g.1 ∧ f.2.shape? = some g.2) fs shapes

theorem readFields_same (fs : List Field) (shapes : List (String × Shape))
    (h : SameFields fs shapes) (c : Cursor) :
    SameOutcome (readFields fs c) (Shape.readFields shapes c.rest) := by
  induction h generalizing c with
  | nil => exact .ok [] c
  | @cons f g fs shapes hfield _ ih =>
    obtain ⟨hname, hshape⟩ := hfield
    have hread := read_same f.2 g.2 hshape c
    rw [readFields, Shape.readFields]
    generalize f.2.read c = r at hread ⊢
    generalize g.2.read c.rest = s at hread ⊢
    cases hread with
    | error e c' fault => exact .error e c' fault
    | ok v c' =>
      rw [hname]
      exact (ih c').map ((g.1, v) :: ·)

/-- A layout and a record of its shapes read the same records from the same payloads. -/
theorem readRecord_same (fs : List Field) (shapes : List (String × Shape))
    (h : SameFields fs shapes) (payload : Bytes) (v : Value) :
    readRecord fs payload = .ok v ↔ Shape.readRecord shapes payload = .ok v := by
  have hfields := readFields_same fs shapes h (.start payload)
  rw [readRecord, Shape.readRecord]
  rw [Cursor.start] at hfields ⊢
  generalize readFields fs ⟨0, payload⟩ = r at hfields ⊢
  dsimp only at hfields
  generalize Shape.readFields shapes payload = s at hfields ⊢
  cases hfields with
  | ok entries c' => simp [Except.map]
  | error e c' fault => simp [Except.map]

/-! ## Fields of a fixed width -/

namespace FieldType

/-- How many bytes a value takes, where all values take as many and all bytes stand for a value. -/
def width? : FieldType → Option Nat
  | unsigned w => some w.size
  | signed w => some w.size
  | key => some AccountKey.width
  | fixed n => some n
  | bool => none
  | text => none
  | block => none

def ofBytes : FieldType → Bytes → Value
  | unsigned _, bs => .uint bs.toNat
  | signed _, bs => .int bs.toInt
  | key, bs => (AccountKey.ofBytes? bs).elim .null .ofKey
  | _, bs => .bytes bs

theorem read_fixed (ty : FieldType) (w : Nat) (h : ty.width? = some w) (c : Cursor)
    (hlen : w ≤ c.remaining) :
    ty.read c = (.ok (ty.ofBytes (c.rest.take w)), ⟨c.position + w, c.rest.drop w⟩) := by
  have htake : c.take w = (.ok (c.rest.take w), ⟨c.position + w, c.rest.drop w⟩) := if_pos hlen
  cases ty with
  | unsigned width =>
    cases h
    rw [read, Cursor.unsigned, htake]
    rfl
  | signed width =>
    cases h
    rw [read, Cursor.signed, htake]
    rfl
  | key =>
    cases h
    replace hlen : 32 ≤ c.rest.length := hlen
    have hwidth : (c.rest.take 32).length = 32 := by rw [List.length_take, Nat.min_eq_left hlen]
    rw [read, Cursor.key, dif_pos hlen, ofBytes, AccountKey.ofBytes?, AccountKey.width,
      dif_pos hwidth]
    rfl
  | fixed n =>
    cases h
    rw [read, htake]
    rfl
  | _ => cases h

theorem read_fixed_short (ty : FieldType) (w : Nat) (h : ty.width? = some w) (c : Cursor)
    (hlen : c.remaining < w) : ∃ e, ty.read c = (.error e, c) := by
  refine ⟨.unexpectedEnd c.position w c.remaining, (ty.read_error_iff _).mpr ?_⟩
  have hshort : c = c ∧ c.Short w (.unexpectedEnd c.position w c.remaining) := ⟨rfl, hlen, rfl⟩
  cases ty with
  | bool => cases h
  | text => cases h
  | block => cases h
  | _ =>
    cases h
    exact hshort

end FieldType

def widthOf : List Field → Nat
  | [] => 0
  | f :: fs => f.2.width?.getD 0 + widthOf fs

def laidOut : List Field → Bytes → List (String × Value)
  | [], _ => []
  | f :: fs, bs =>
    let w := f.2.width?.getD 0
    (f.1, f.2.ofBytes (bs.take w)) :: laidOut fs (bs.drop w)

theorem readFields_fixed (fs : List Field) (h : ∀ f ∈ fs, f.2.width?.isSome) (c : Cursor)
    (hlen : widthOf fs ≤ c.remaining) :
    readFields fs c =
      (.ok (laidOut fs c.rest), ⟨c.position + widthOf fs, c.rest.drop (widthOf fs)⟩) := by
  induction fs generalizing c with
  | nil => rfl
  | cons f fs ih =>
    obtain ⟨hf, hfs⟩ := List.forall_mem_cons.mp h
    obtain ⟨w, hw⟩ := Option.isSome_iff_exists.mp hf
    rw [widthOf, hw, Option.getD_some] at hlen ⊢
    have hread := f.2.read_fixed w hw c (by omega)
    have hrest : widthOf fs ≤ Cursor.remaining ⟨c.position + w, c.rest.drop w⟩ := by
      rw [Cursor.remaining, List.length_drop]
      exact Nat.le_sub_of_add_le' hlen
    rw [readFields, hread, laidOut, hw]
    simp only [ih hfs _ hrest, List.drop_drop, Nat.add_assoc, Option.getD_some]
    rfl

theorem readFields_fixed_short (fs : List Field) (h : ∀ f ∈ fs, f.2.width?.isSome) (c : Cursor)
    (hlen : c.remaining < widthOf fs) : ∃ e, (readFields fs c).1 = .error e := by
  induction fs generalizing c with
  | nil => cases hlen
  | cons f fs ih =>
    obtain ⟨hf, hfs⟩ := List.forall_mem_cons.mp h
    obtain ⟨w, hw⟩ := Option.isSome_iff_exists.mp hf
    rw [widthOf, hw, Option.getD_some] at hlen
    by_cases hshort : c.remaining < w
    · obtain ⟨e, he⟩ := f.2.read_fixed_short w hw c hshort
      exact ⟨e, by rw [readFields, he]⟩
    · have hread := f.2.read_fixed w hw c (by omega)
      obtain ⟨e, he⟩ := ih hfs ⟨c.position + w, c.rest.drop w⟩ (by
        rw [Cursor.remaining] at hlen hshort ⊢
        rw [List.length_drop]
        omega)
      refine ⟨e, ?_⟩
      rw [readFields, hread]
      dsimp only
      rw [he]
      rfl

/-- A record of fields of fixed widths is there just if all its bytes are. -/
theorem readRecord_fixed (fs : List Field) (h : ∀ f ∈ fs, f.2.width?.isSome) (payload : Bytes) :
    (widthOf fs ≤ payload.length → readRecord fs payload = .ok (.record (laidOut fs payload))) ∧
      (payload.length < widthOf fs → ∃ e, readRecord fs payload = .error e) := by
  constructor
  · intro hlen
    rw [readRecord, readFields_fixed fs h (.start payload) hlen]
    rfl
  · intro hlen
    obtain ⟨e, he⟩ := readFields_fixed_short fs h (.start payload) hlen
    exact ⟨e, by rw [readRecord, he]; rfl⟩

end TaggedPayload
