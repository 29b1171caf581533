import TaggedPayload.Event.Json
import TaggedPayload.Proofs.Text.HexReading
import TaggedPayload.Proofs.Text.KeyReading
import TaggedPayload.Proofs.Value.JsonReading

/-!
# Events read back from JSON

Each member of an event is read back from what is written for it: the decoded value from its tree,
the payload and the tag from their digits, the program from its base 58 text. A missing tag is
written as nothing and read as no tag. An event that is read has a payload of its own, so it is the
written one detached.
-/

set_option autoImplicit false

namespace TaggedPayload

theorem Tag.optionOfJson_toJson (t : Tag) : optionOfJson t.toJson = .ok (some t) := by
  simp only [optionOfJson, toJson, ofJson, Json.asString, bind, Except.bind, ofText?_text]
  rfl

theorem AccountKey.ofJson_toJson (k : AccountKey) : ofJson k.toJson = .ok k := by
  simp only [toJson, ofJson, Json.asString, bind, Except.bind, ofText_text]

namespace Event

def commonMembers (e : Event) : List (String × Json) :=
  [("name", .string e.name), ("data", e.data.toJson), ("raw", .string (Text.markedHex e.raw)),
    ("program_id", e.program.toJson)]

def tagMember (e : Event) : List (String × Json) :=
  (e.tag.map fun t => ("discriminator", t.toJson)).toList

theorem isWhole_toJson (e : Event) : e.toJson.isWhole = true := by
  cases htag : e.tag <;>
    simp [toJson, htag, Json.isWhole, Json.membersAreWhole, e.data.isWhole_toJson,
      AccountKey.toJson, Tag.toJson]

/-- The event's object is one container around its value. -/
theorem nesting_data (e : Event) : e.data.toJson.nesting < e.toJson.nesting := by
  simp [toJson, Json.nesting, Json.membersNesting]

namespace Draft

theorem rawOfJson_markedHex (bs : Bytes) : rawOfJson (.string (Text.markedHex bs)) = .ok bs := by
  simp only [rawOfJson, Json.asString, bind, Except.bind, Text.readMarkedHex_markedHex]

theorem dataOfJson_toJson (v : Value) (hrange : v.inRange = true)
    (hnesting : v.toJson.nesting < Json.nestingLimit) : dataOfJson v.toJson = .ok v := by
  rw [dataOfJson, v.ofJson?_toJson _ hrange (Nat.le_sub_one_of_lt hnesting)]

theorem members_append (d : Draft) (ms ns : List (String × Json)) :
    d.members (ms ++ ns) = (d.members ms).bind (·.members ns) := by
  induction ms generalizing d with
  | nil => rfl
  | cons m ms ih =>
    obtain ⟨key, j⟩ := m
    simp only [List.cons_append, members, bind, Except.bind]
    cases d.member key j with
    | error f => rfl
    | ok d => exact ih d

def untagged (e : Event) : Draft :=
  ⟨some e.name, some e.data, some e.raw, some e.program, none⟩

theorem members_common (e : Event) (hrange : e.data.inRange = true)
    (hnesting : e.toJson.nesting ≤ Json.nestingLimit) :
    empty.members e.commonMembers = .ok (untagged e) := by
  have hdata := dataOfJson_toJson e.data hrange (Nat.lt_of_lt_of_le e.nesting_data hnesting)
  have hraw := rawOfJson_markedHex e.raw
  have hprogram := e.program.ofJson_toJson
  simp [commonMembers, members, member, fill, empty, untagged, Json.asString, hdata, hraw,
    hprogram, Except.map, bind, Except.bind]

theorem members_tag (e : Event) :
    (untagged e).members e.tagMember = .ok { untagged e with tag := e.tag.map some } := by
  rw [tagMember]
  cases e.tag with
  | none => rfl
  | some t =>
    simp [members, member, fill, untagged, t.optionOfJson_toJson, Except.map, bind, Except.bind]

theorem event_tagged (e : Event) : ((untagged e).members e.tagMember).bind event = .ok e := by
  rw [members_tag]
  obtain ⟨name, data, raw, program, tag⟩ := e
  cases tag <;> rfl

end Draft

theorem ofJson_object (ms : List (String × Json)) :
    ofJson (.object ms) = (Draft.empty.members ms).bind Draft.event := rfl

theorem ofJson_toJson (e : Event) (hrange : e.data.inRange = true)
    (hnesting : e.toJson.nesting ≤ Json.nestingLimit) : ofJson e.toJson = .ok e := by
  have hobject : e.toJson = .object (e.commonMembers ++ e.tagMember) := rfl
  rw [hobject, ofJson_object, Draft.members_append, Draft.members_common e hrange hnesting]
  exact Draft.event_tagged e

end Event

theorem HeldEvent.ofText_ok (s : String) (e : Event) (h : Json.ofText Event.ofJson s = .ok e) :
    ofText s = .ok ⟨e, .owned⟩ := by
  rw [ofText, h]
  rfl

/-- Both texts of an event are read back as the event with a payload of its own. Fewer than 128
containers may stand inside one another in them, the event's own object among these. -/
theorem event_json_round_trip (h : HeldEvent) (hrange : h.event.data.inRange = true)
    (hnesting : h.event.toJson.nesting < 128) :
    HeldEvent.ofText h.event.toJson.text = .ok ⟨h.event, .owned⟩ ∧
      HeldEvent.ofText h.event.toJson.prettyText = .ok ⟨h.event, .owned⟩ := by
  have htree := h.event.ofJson_toJson hrange (Nat.le_of_lt_succ hnesting)
  have hwhole := h.event.isWhole_toJson
  constructor
  · apply HeldEvent.ofText_ok
    rw [Json.ofText_text Event.ofJson _ hwhole, htree]
  · apply HeldEvent.ofText_ok
    rw [Json.ofText_prettyText Event.ofJson _ hwhole, htree]

/-- The event whose record holds the largest and the least number, empty and nested containers, no
content and texts that need escapes. -/
def extremeEvent : Event where
  name := "Swap \"\\\n\x01é"
  data := .record [("most", .uint (Value.uintBound - 1)), ("least", .int (-Value.intBound)),
    ("", .null), ("\"", .array [.array [], .record [], .record [("\t", .text "/")]]),
    ("", .bytes [0, 255]), ("key", .ofKey .zero), ("on", .bool true)]
  raw := [222, 173]
  program := .zero
  tag := some ⟨[1, 2, 3, 4, 5, 6, 7, 255], rfl⟩

theorem event_json_round_trip_extremes :
    (extremeEvent.data.inRange = true ∧ extremeEvent.toJson.nesting < 128) ∧
    HeldEvent.ofText extremeEvent.toJson.text = .ok ⟨extremeEvent, .owned⟩ ∧
      HeldEvent.ofText extremeEvent.toJson.prettyText = .ok ⟨extremeEvent, .owned⟩ :=
  ⟨by decide, event_json_round_trip ⟨extremeEvent, .borrowed⟩ (by decide) (by decide)⟩

end TaggedPayload
