import TaggedPayload.Event.Basic
import TaggedPayload.Value.Json

/-!
# Events as JSON

An event is an object of its five members in their order; without a tag the last one is left out.
Reading takes the members in any order, each at most once, ignores others, and takes a list of the
members in order as well. Keys and tags are refused with a text of their own.
-/

set_option autoImplicit false

namespace TaggedPayload

def Json.asString : Json → Except JsonFault String
  | .string s => .ok s
  | _ => .error .malformed

namespace Tag

def toJson (t : Tag) : Json := .string t.text

def ofJson (j : Json) : Except JsonFault Tag := do
  let s ← j.asString
  match ofText? s with
  | some t => .ok t
  | none => .error (.refused s!"invalid discriminator '{s}'")

/-- A tag, or null for none. -/
def optionOfJson : Json → Except JsonFault (Option Tag)
  | .null => .ok none
  | j => (ofJson j).map some

end Tag

namespace AccountKey

def toJson (k : AccountKey) : Json := .string k.text

def ofJson (j : Json) : Except JsonFault AccountKey := do
  let s ← j.asString
  match ofText s with
  | .ok k => .ok k
  | .error f => .error (.refused f.message)

end AccountKey

namespace Event

def toJson (e : Event) : Json :=
  .object <|
    [("name", .string e.name), ("data", e.data.toJson), ("raw", .string (Text.markedHex e.raw)),
      ("program_id", e.program.toJson)] ++
    (e.tag.map fun t => ("discriminator", t.toJson)).toList

structure Draft where
  name : Option String
  data : Option Value
  raw : Option Bytes
  program : Option AccountKey
  tag : Option (Option Tag)

namespace Draft

def empty : Draft := ⟨none, none, none, none, none⟩

/-- Fills a place that is still free. -/
def fill {α : Type} (place : Option α) (value : Except JsonFault α) : Except JsonFault (Option α) :=
  if place.isSome then .error .malformed else value.map some

def dataOfJson (j : Json) : Except JsonFault Value :=
  match Value.ofJson? (Json.nestingLimit - 1) false j with
  | some v => .ok v
  | none => .error .malformed

def rawOfJson (j : Json) : Except JsonFault Bytes := do
  let s ← j.asString
  match Text.readMarkedHex s with
  | .ok bs => .ok bs
  | .error _ => .error .malformed

def member (d : Draft) (key : String) (j : Json) : Except JsonFault Draft :=
  if key = "name" then (fill d.name j.asString).map fun x => { d with name := x }
  else if key = "data" then (fill d.data (dataOfJson j)).map fun x => { d with data := x }
  else if key = "raw" then (fill d.raw (rawOfJson j)).map fun x => { d with raw := x }
  else if key = "program_id" then
    (fill d.program (AccountKey.ofJson j)).map fun x => { d with program := x }
  else if key = "discriminator" then
    (fill d.tag (Tag.optionOfJson j)).map fun x => { d with tag := x }
  else .ok d

def members (d : Draft) : List (String × Json) → Except JsonFault Draft
  | [] => .ok d
  | (k, j) :: ms => do (← d.member k j).members ms

/-- The event, when every member but the tag is there. -/
def event (d : Draft) : Except JsonFault Event :=
  match d with
  | ⟨some name, some data, some raw, some program, tag⟩ => .ok ⟨name, data, raw, program, tag.join⟩
  | _ => .error .malformed

end Draft

def memberNames : List String :=
  ["name", "data", "raw", "program_id", "discriminator"]

/-- Reads an event from an object or from a list of its members. -/
def ofJson : Json → Except JsonFault Event
  | .object ms => do (← Draft.empty.members ms).event
  | .array xs =>
    if xs.length ≤ memberNames.length then do
      (← Draft.empty.members (memberNames.zip xs)).event
    else do
      let _ ← Draft.empty.members (memberNames.zip xs)
      .error .malformed
  | .broken part => Json.breakOff (ofJson part)
  | _ => .error .malformed

end Event

/-- Reads an event from a whole text; it has a payload of its own. -/
def HeldEvent.ofText (s : String) : Except JsonFault HeldEvent :=
  (Json.ofText Event.ofJson s).map fun e => ⟨e, .owned⟩

end TaggedPayload
