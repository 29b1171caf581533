import TaggedPayload.Proofs.Event.JsonReading
import TaggedPayload.Proofs.Text.HexTexts

/-!
# Tags and payloads in hexadecimal

A tag and the payload of an event are written in the same notation and read from the same texts,
but a tag has sixteen digits while a payload has any even number of them. Another text in the place
of one of the two changes just that member of the event, or the event is not read.
-/

set_option autoImplicit false

namespace TaggedPayload

open Text (HexDigits lowered)

namespace Tag

theorem ofBytes?_eq_some_iff (bs : Bytes) (t : Tag) : ofBytes? bs = some t ↔ bs = t.bytes := by
  rw [ofBytes?]
  constructor
  · intro h
    split at h
    next =>
      cases h
      rfl
    next => cases h
  · rintro rfl
    exact dif_pos t.length_bytes

theorem ofText?_eq_some_iff (s : String) (t : Tag) :
    ofText? s = some t ↔ Text.readMarkedHex s = .ok t.bytes := by
  rw [ofText?]
  cases Text.readMarkedHex s <;> simp [ofBytes?_eq_some_iff]

theorem ofText?_lowered_iff (s : String) (t : Tag) :
    ofText? s = some t ↔ ∃ ds, HexDigits s ds ∧ ds.length = 16 ∧ t.text = lowered ds := by
  rw [ofText?_eq_some_iff, Text.readMarkedHex_lowered_iff, t.length_bytes]
  rfl

theorem exists_ofText?_iff (s : String) :
    (∃ t, ofText? s = some t) ↔ ∃ ds, HexDigits s ds ∧ ds.length = 16 := by
  constructor
  · rintro ⟨t, h⟩
    obtain ⟨ds, hds, hlength, -⟩ := (ofText?_lowered_iff s t).mp h
    exact ⟨ds, hds, hlength⟩
  · rintro ⟨ds, ⟨hs, hdigits⟩, hlength⟩
    obtain ⟨bs, hbs⟩ := Text.Hex.exists_spells ds (by omega) hdigits
    have height : bs.length = 8 := by
      have := hbs.length
      omega
    refine ⟨⟨bs, height⟩, (ofText?_eq_some_iff s _).mpr ?_⟩
    exact (Text.readMarkedHex_ok_iff s bs).mpr ⟨ds, hs, hbs⟩

end Tag

def Json.withMember (j : Json) (key : String) (value : Json) : Json :=
  match j with
  | .object ms => .object (ms.map fun m => if m.1 = key then (key, value) else m)
  | j => j

namespace Event

theorem Draft.rawOfJson_ok_iff (s : String) (bs : Bytes) :
    rawOfJson (.string s) = .ok bs ↔ Text.readMarkedHex s = .ok bs := by
  simp only [rawOfJson, Json.asString, bind, Except.bind]
  cases Text.readMarkedHex s <;> simp

theorem toJson_withRaw (e : Event) (s : String) :
    e.toJson.withMember "raw" (.string s) =
      .object ([("name", .string e.name), ("data", e.data.toJson), ("raw", .string s),
        ("program_id", e.program.toJson)] ++ e.tagMember) := by
  rw [toJson, Json.withMember, tagMember]
  cases e.tag <;> simp

theorem toJson_withTag (e : Event) (s : String) (t : Tag) (htag : e.tag = some t) :
    e.toJson.withMember "discriminator" (.string s) =
      .object (e.commonMembers ++ [("discriminator", .string s)]) := by
  simp [toJson, Json.withMember, commonMembers, htag]

variable (e : Event) (s : String) (hrange : e.data.inRange = true)
  (hnesting : e.toJson.nesting ≤ Json.nestingLimit)

include hrange hnesting

theorem ofJson_withRaw :
    ofJson (e.toJson.withMember "raw" (.string s)) =
      (Draft.rawOfJson (.string s)).map fun bs => { e with raw := bs } := by
  have hdata := Draft.dataOfJson_toJson e.data hrange (Nat.lt_of_lt_of_le e.nesting_data hnesting)
  have hprogram := e.program.ofJson_toJson
  rw [toJson_withRaw, ofJson_object, Draft.members_append]
  cases hraw : Draft.rawOfJson (.string s) with
  | error f =>
    simp [Draft.members, Draft.member, Draft.fill, Draft.empty, Json.asString, hdata, hraw,
      Except.map, bind, Except.bind]
  | ok bs =>
    simp only [Draft.members, Draft.member, Draft.fill, Draft.empty, Json.asString, hdata, hraw,
      hprogram, Except.map, bind, Except.bind]
    exact Draft.event_tagged { e with raw := bs }

theorem ofJson_withTag (htag : e.tag.isSome = true) :
    ofJson (e.toJson.withMember "discriminator" (.string s)) =
      match Tag.ofText? s with
      | some t => .ok { e with tag := some t }
      | none => .error (.refused s!"invalid discriminator '{s}'") := by
  obtain ⟨t, ht⟩ := Option.isSome_iff_exists.mp htag
  rw [toJson_withTag e s t ht, ofJson_object, Draft.members_append,
    Draft.members_common e hrange hnesting]
  cases hread : Tag.ofText? s <;>
    simp [Draft.members, Draft.member, Draft.fill, Draft.untagged, Tag.optionOfJson, Tag.ofJson,
      Json.asString, hread, Draft.event, Except.map, bind, Except.bind]

end Event

/-- A tag is read back from its text. A text is read as a tag just if it is sixteen digits of either
case, behind one mark or none; the tag's own text is these digits in lower case behind a mark. The
bytes of a payload are read back from their text as well, and a text is read as a payload just if it
is an even number of digits, behind one mark or none; the payload is the bytes that these digits
spell. Both readings agree where there are eight bytes. In the object of an event, the text that is
read for one of the two becomes that member of the event, and the rest stays. -/
theorem hex_forms (s : String) :
    (∀ t : Tag, Tag.ofText? t.text = some t) ∧
    ((∃ t, Tag.ofText? s = some t) ↔ ∃ ds, HexDigits s ds ∧ ds.length = 16) ∧
    (∀ t, Tag.ofText? s = some t ↔
      ∃ ds, HexDigits s ds ∧ ds.length = 16 ∧ t.text = lowered ds) ∧
    (∀ e : Event, e.toJson.withMember "raw" (.string (Text.markedHex e.raw)) = e.toJson) ∧
    (∀ bs, Event.Draft.rawOfJson (.string (Text.markedHex bs)) = .ok bs) ∧
    ((∃ bs, Event.Draft.rawOfJson (.string s) = .ok bs) ↔
      ∃ ds, HexDigits s ds ∧ ds.length % 2 = 0) ∧
    (∀ bs, Event.Draft.rawOfJson (.string s) = .ok bs ↔
      ∃ ds, Text.Bears s ds ∧ Text.Hex.Spells ds bs) ∧
    (∀ t, Tag.ofText? s = some t ↔ Event.Draft.rawOfJson (.string s) = .ok t.bytes) ∧
    ∀ e : Event, e.data.inRange = true → e.toJson.nesting ≤ Json.nestingLimit →
      Event.ofJson (e.toJson.withMember "raw" (.string s)) =
        (Event.Draft.rawOfJson (.string s)).map (fun bs => { e with raw := bs }) ∧
      (e.tag.isSome = true → Event.ofJson (e.toJson.withMember "discriminator" (.string s)) =
        match Tag.ofText? s with
        | some t => .ok { e with tag := some t }
        | none => .error (.refused s!"invalid discriminator '{s}'")) := by
  simp only [Event.Draft.rawOfJson_ok_iff]
  exact ⟨Tag.ofText?_text, Tag.exists_ofText?_iff s, Tag.ofText?_lowered_iff s,
    fun e => e.toJson_withRaw (Text.markedHex e.raw), Text.readMarkedHex_markedHex,
    Text.exists_readMarkedHex_iff s, Text.readMarkedHex_ok_iff s, Tag.ofText?_eq_some_iff s,
    fun e hrange hnesting =>
      ⟨e.ofJson_withRaw s hrange hnesting, e.ofJson_withTag s hrange hnesting⟩⟩

/-- Digits of both cases without a mark, in the place of both members. A second mark or a mark with
a capital letter makes no digits, and the mark alone is the text of an empty payload only. -/
theorem hex_forms_mixed_case :
    let s := "DEADbeef00010203"
    let t : Tag := ⟨[222, 173, 190, 239, 0, 1, 2, 3], rfl⟩
    let e := extremeEvent
    (e.data.inRange = true ∧ e.toJson.nesting ≤ Json.nestingLimit ∧ e.tag.isSome = true) ∧
      Tag.ofText? s = some t ∧ t.text = "0xdeadbeef00010203" ∧ Tag.ofText? t.text = some t ∧
      Event.ofJson (e.toJson.withMember "raw" (.string s)) = .ok { e with raw := t.bytes } ∧
      Event.ofJson (e.toJson.withMember "discriminator" (.string s)) =
        .ok { e with tag := some t } ∧
      (¬∃ ds, HexDigits "0x0xDEADbeef00010203" ds ∧ ds.length = 16) ∧
      (¬∃ ds, HexDigits "0XDEADbeef00010203" ds ∧ ds.length = 16) ∧
      (∃ ds, HexDigits "0x" ds ∧ ds.length % 2 = 0) := by
  intro s t e
  have hread : Tag.ofText? s = some t := by decide +kernel
  have htwice : Tag.ofText? "0x0xDEADbeef00010203" = none := by decide +kernel
  have hcapital : Tag.ofText? "0XDEADbeef00010203" = none := by decide +kernel
  obtain ⟨hback, -, -, -, -, -, -, hagree, hevent⟩ := hex_forms s
  obtain ⟨hraw, htag⟩ := hevent e (by decide) (by decide)
  refine ⟨by decide, hread, by decide +kernel, hback t, ?_, ?_, fun h => ?_, fun h => ?_, ?_⟩
  · rw [hraw, (hagree t).mp hread]
    rfl
  · rw [htag rfl, hread]
  · obtain ⟨t', ht'⟩ := (hex_forms "0x0xDEADbeef00010203").2.1.mpr h
    rw [htwice] at ht'
    cases ht'
  · obtain ⟨t', ht'⟩ := (hex_forms "0XDEADbeef00010203").2.1.mpr h
    rw [hcapital] at ht'
    cases ht'
  · obtain ⟨-, -, -, -, -, hraw, -⟩ := hex_forms "0x"
    exact hraw.mp ⟨[], by decide +kernel⟩

end TaggedPayload
