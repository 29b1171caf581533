import TaggedPayload.Demo.SwapEvent
import TaggedPayload.Proofs.Decoder.SplitBuffer
import TaggedPayload.Proofs.Layout.SameRecord

/-!
# Three ways to one record

A swap is decoded by its shape, by reads one after another, and by its layout. The three accept
the same payloads. Where the tag is followed by all bytes of the fields they yield one event, whose
values stand at fixed offsets, so nothing behind the fields shows in it; otherwise all three fail,
with one kind of error.
-/

set_option autoImplicit false

namespace TaggedPayload.Demo.SwapEvent

def fields : List Field :=
  [("pool", .key), ("user", .key), ("mint", .key), ("amount_in", .unsigned .eight),
    ("amount_out", .unsigned .eight), ("price_delta", .signed .eight)]

def tag : Tag := .ofEvent name

theorem layout_read : Layout.readFirst layout = .ok ⟨name, .event, .zero, tag, fields⟩ := by
  decide +kernel

theorem fields_shape : SameFields fields shape := by
  repeat' constructor

theorem fields_width : ∀ f ∈ fields, f.2.width?.isSome := by
  decide

section

variable {ε α β γ : Type}

theorem mapped_bind (r : Except ε α) (f : α → β) (k : β → Except ε γ) :
    r.map f >>= k = r >>= fun x => k (f x) := by
  cases r <;> rfl

theorem bind_mapped (r : Except ε α) (k : α → Except ε β) (f : β → γ) :
    (r >>= k).map f = r >>= fun x => (k x).map f := by
  cases r <;> rfl

end

/-- Reads one after another do what reading the fields does. -/
theorem readByHand_fields (payload : Bytes) : readByHand payload = readRecord fields payload := by
  rw [readByHand, readRecord, fields]
  simp only [readFields_first, FieldType.read, mapped_bind, bind_mapped]
  rfl

/-! ## The record at its offsets -/

def keyIn (bs : Bytes) : Value :=
  (AccountKey.ofBytes? bs).elim .null .ofKey

def part (payload : Bytes) (offset width : Nat) : Bytes :=
  (payload.drop offset).take width

def atOffsets (payload : Bytes) : List (String × Value) :=
  [("pool", keyIn (part payload 0 32)), ("user", keyIn (part payload 32 32)),
    ("mint", keyIn (part payload 64 32)), ("amount_in", .uint (part payload 96 8).toNat),
    ("amount_out", .uint (part payload 104 8).toNat),
    ("price_delta", .int (part payload 112 8).toInt)]

theorem laidOut_fields (payload : Bytes) : laidOut fields payload = atOffsets payload := by
  simp only [fields, laidOut, FieldType.width?, List.drop_drop]
  rfl

theorem part_append (payload extra : Bytes) (offset width : Nat)
    (h : offset + width ≤ payload.length) :
    part (payload ++ extra) offset width = part payload offset width := by
  rw [part, part, List.drop_append_of_le_length (by omega), List.take_append_of_le_length]
  rw [List.length_drop]
  omega

theorem atOffsets_append (payload extra : Bytes) (h : 120 ≤ payload.length) :
    atOffsets (payload ++ extra) = atOffsets payload := by
  have hpart (offset width : Nat) (hend : offset + width ≤ 120) :=
    part_append payload extra offset width (hend.trans h)
  rw [atOffsets, hpart 0 32 (by decide), hpart 32 32 (by decide), hpart 64 32 (by decide),
    hpart 96 8 (by decide), hpart 104 8 (by decide), hpart 112 8 (by decide)]
  rfl

theorem readRecord_fields (payload : Bytes) :
    (120 ≤ payload.length → readRecord fields payload = .ok (.record (atOffsets payload))) ∧
      (payload.length < 120 → ∃ e, readRecord fields payload = .error e) := by
  rw [← laidOut_fields]
  exact readRecord_fixed fields fields_width payload

/-! ## The decoders -/

/-- A decoder of the event that reads what the fields of the layout read. -/
structure IsWay (d : TaggedDecoder) : Prop where
  name_eq : d.name = name
  program_eq : d.program = .zero
  tag_eq : d.tag = tag
  read_iff : ∀ (payload : Bytes) (v : Value),
    d.read payload = .ok v ↔ readRecord fields payload = .ok v

theorem mapError_ok_iff {ε δ α : Type} (r : Except ε α) (f : ε → δ) (a : α) :
    r.mapError f = .ok a ↔ r = .ok a := by
  cases r <;> simp [Except.mapError]

theorem byShape_isWay : IsWay byShape where
  name_eq := rfl
  program_eq := rfl
  tag_eq := rfl
  read_iff payload v := by
    rw [byShape]
    dsimp only
    rw [mapError_ok_iff, readRecord_same fields shape fields_shape]

theorem byHand_isWay : IsWay byHand where
  name_eq := rfl
  program_eq := rfl
  tag_eq := rfl
  read_iff payload v := by
    rw [byHand]
    dsimp only
    rw [mapError_ok_iff, readByHand_fields]

def laid : TaggedDecoder :=
  Layout.decoder ⟨name, .event, .zero, tag, fields⟩

theorem byLayout_eq : byLayout = .ok laid := by
  rw [byLayout, layout_read]
  rfl

theorem laid_isWay : IsWay laid where
  name_eq := rfl
  program_eq := rfl
  tag_eq := rfl
  read_iff payload v := by
    rw [laid, Layout.decoder]
    dsimp only
    cases readRecord fields payload <;> simp

def eventOf (data : Bytes) : Event :=
  ⟨name, .record (atOffsets (data.drop Tag.width)), data, .zero, some tag⟩

/-- The tag is followed by all bytes of the fields. -/
def Whole (data : Bytes) : Prop :=
  Tag.leading? data = some tag ∧ 120 ≤ (data.drop Tag.width).length

def fault (data : Bytes) : String :=
  if Tag.leading? data = some tag then "decode_failure" else "discriminator_mismatch"

namespace IsWay

variable {d : TaggedDecoder}

theorem accepts_iff (h : IsWay d) (data : Bytes) :
    d.accepts data = true ↔ Tag.leading? data = some tag := by
  rw [TaggedDecoder.accepts, h.tag_eq, beq_iff_eq]

theorem decode_whole (h : IsWay d) (data : Bytes) (hdata : Whole data) :
    d.decode data = .ok (eventOf data) := by
  have hread := (h.read_iff _ _).mpr ((readRecord_fields _).1 hdata.2)
  rw [TaggedDecoder.decode, if_pos ((h.accepts_iff data).mpr hdata.1), TaggedDecoder.event,
    hread, h.name_eq, h.program_eq, h.tag_eq]
  rfl

theorem short (h : IsWay d) (payload : Bytes) (hlen : payload.length < 120) :
    ∃ cause, d.read payload = .error cause := by
  obtain ⟨e, he⟩ := (readRecord_fields payload).2 hlen
  cases hread : d.read payload with
  | error cause => exact ⟨cause, rfl⟩
  | ok v =>
    rw [h.read_iff, he] at hread
    cases hread

theorem decode_fault (h : IsWay d) (data : Bytes) (hdata : ¬Whole data) :
    ∃ e, d.decode data = .error e ∧ e.label = fault data := by
  rw [TaggedDecoder.decode]
  by_cases htag : Tag.leading? data = some tag
  · have hshort : (data.drop Tag.width).length < 120 := by
      by_contra hlen
      exact hdata ⟨htag, by omega⟩
    obtain ⟨cause, hcause⟩ := h.short _ hshort
    rw [if_pos ((h.accepts_iff data).mpr htag), TaggedDecoder.event, hcause, fault, if_pos htag]
    exact ⟨_, rfl, rfl⟩
  · rw [if_neg (mt (h.accepts_iff data).mp htag), fault, if_neg htag]
    exact ⟨_, rfl, rfl⟩

theorem decode_ok_iff (h : IsWay d) (data : Bytes) (e : Event) :
    d.decode data = .ok e ↔ Whole data ∧ e = eventOf data := by
  by_cases hdata : Whole data
  · rw [h.decode_whole data hdata, Except.ok.injEq, eq_comm, and_iff_right hdata]
  · obtain ⟨err, herr, -⟩ := h.decode_fault data hdata
    rw [herr]
    simp [hdata]

end IsWay

/-- Bytes behind the fields change the buffer of the event and nothing else. -/
theorem eventOf_append (data extra : Bytes) (h : Whole data) :
    Whole (data ++ extra) ∧
      eventOf (data ++ extra) = { eventOf data with raw := data ++ extra } := by
  obtain ⟨htag, hlen⟩ := h
  have hdata : 8 ≤ data.length := by
    rw [List.length_drop, Tag.width] at hlen
    omega
  have hdrop : (data ++ extra).drop Tag.width = data.drop Tag.width ++ extra :=
    List.drop_append_of_le_length hdata
  refine ⟨⟨?_, ?_⟩, ?_⟩
  · rw [Tag.leading?, List.take_append_of_le_length hdata]
    exact htag
  · rw [hdrop, List.length_append]
    omega
  · rw [eventOf, hdrop, atOffsets_append _ extra hlen]
    rfl

/-- The shape, the reads one after another and the layout accept the buffers that start with the
tag and decode those of them that hold all fields, to the same event; what follows the fields does
not matter. Otherwise all three fail with the same label. -/
theorem three_ways_agree (data : Bytes) :
    ∃ laid, byLayout = .ok laid ∧
      (∀ way ∈ [byShape, byHand, laid],
        (way.accepts data = true ↔ Tag.leading? data = some tag) ∧
          (∀ e, way.decode data = .ok e ↔ Whole data ∧ e = eventOf data) ∧
          (¬Whole data → ∃ e, way.decode data = .error e ∧ e.label = fault data)) ∧
      ∀ extra, Whole data →
        Whole (data ++ extra) ∧
          eventOf (data ++ extra) = { eventOf data with raw := data ++ extra } := by
  refine ⟨laid, byLayout_eq, ?_, fun extra => eventOf_append data extra⟩
  have hways : ∀ way ∈ [byShape, byHand, laid], IsWay way := by
    simp [byShape_isWay, byHand_isWay, laid_isWay]
  intro way hway
  have h := hways way hway
  exact ⟨h.accepts_iff data, h.decode_ok_iff data, h.decode_fault data⟩

/-- The largest amount and a negative difference, with two bytes behind the fields. -/
theorem three_ways_agree_extremes :
    let payload : Bytes := List.replicate 120 255 ++ [7, 7]
    let data := TaggedBuffer.bytes ⟨tag, payload⟩
    byShape.decode data = .ok (eventOf data) ∧
      byHand.decode data = .ok (eventOf data) ∧
      byLayout.bind (fun laid => pure (laid.decode data)) = .ok (.ok (eventOf data)) ∧
      (eventOf data).field? "amount_out" = some (.uint 18446744073709551615) ∧
      (eventOf data).field? "price_delta" = some (.int (-1)) := by
  intro payload data
  have hpayload : data.drop Tag.width = payload := drop_bytes ⟨tag, payload⟩
  have hwhole : Whole data := ⟨leading_bytes ⟨tag, payload⟩, by simp [hpayload, payload]⟩
  obtain ⟨laid, hlaid, hways, -⟩ := three_ways_agree data
  have hdecode : ∀ way ∈ [byShape, byHand, laid], way.decode data = .ok (eventOf data) :=
    fun way hway => ((hways way hway).2.1 _).mpr ⟨hwhole, rfl⟩
  refine ⟨hdecode _ (by simp), hdecode _ (by simp), ?_, ?_, ?_⟩
  · rw [hlaid]
    exact congrArg Except.ok (hdecode _ (by simp))
  · rw [eventOf, hpayload]
    decide
  · rw [eventOf, hpayload]
    decide

end TaggedPayload.Demo.SwapEvent
