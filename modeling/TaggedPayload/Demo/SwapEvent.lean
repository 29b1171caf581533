import TaggedPayload.Decoder.Shape
import TaggedPayload.Demo.Transcript
import TaggedPayload.Event.Json
import TaggedPayload.Layout.Document

/-!
# One event in three ways

An event of a token swap is decoded by a record shape, by reads one after another, and by a layout.
All three yield the same record.
-/

set_option autoImplicit false

namespace TaggedPayload.Demo.SwapEvent

def name : String := "SwapExecuted"

def shape : List (String × Shape) :=
  [("pool", .key), ("user", .key), ("mint", .key), ("amount_in", .uint .eight),
    ("amount_out", .uint .eight), ("price_delta", .int .eight)]

def layout : String :=
  "
layout SwapExecuted:
  kind: event
  fields:
    pool: pubkey
    user: pubkey
    mint: pubkey
    amount_in: u64
    amount_out: u64
    price_delta: i64
"

/-- The tag and a payload of 120 bytes. -/
def buffer : Bytes :=
  (Tag.ofEvent name).bytes ++ List.replicate 32 0x11 ++ List.replicate 32 0x22 ++
    List.replicate 32 0x33 ++ Bytes.ofNat 8 2500000 ++ Bytes.ofNat 8 2487512 ++
    Bytes.ofInt 8 (-12488)

def readByHand (payload : Bytes) : Except ReadError Value := do
  let (pool, c) := (Cursor.start payload).key
  let (user, c) := c.key
  let (mint, c) := c.key
  let (amountIn, c) := c.unsigned 8
  let (amountOut, c) := c.unsigned 8
  let (priceDelta, _) := c.signed 8
  return .record
    [("pool", .ofKey (← pool)), ("user", .ofKey (← user)), ("mint", .ofKey (← mint)),
      ("amount_in", .uint (← amountIn)), ("amount_out", .uint (← amountOut)),
      ("price_delta", .int (← priceDelta))]

def byShape : TaggedDecoder :=
  ⟨name, .zero, .ofEvent name, fun bs => (Shape.readRecord shape bs).mapError (·.message)⟩

def byHand : TaggedDecoder :=
  ⟨name, .zero, .ofEvent name, fun bs => (readByHand bs).mapError (·.message)⟩

def byLayout : Except LayoutFault TaggedDecoder :=
  (Layout.readFirst layout).map Layout.decoder

def fieldRows : Value → List String
  | .record fs => fs.map fun f => row 12 f.1 f.2.display
  | _ => []

def lines : Except CommandLine.Failure (List String) := do
  let byLayout ← byLayout.mapError (.plain ·.message)
  let split ← (TaggedBuffer.ofBytes buffer).mapError .ofDecodeError
  let shaped ← (byShape.decode buffer).mapError .ofDecodeError
  let handRead ← (byHand.decodeBuffer split).mapError .ofDecodeError
  let laidOut ← (byLayout.decode buffer).mapError .ofDecodeError
  let held : HeldEvent := ⟨shaped, .borrowed⟩
  return title "SwapExecuted decode" ++
    [s!"  discriminator: {(Tag.ofEvent name).text}", s!"  buffer:        {buffer.length} bytes"] ++
    heading "Decoded" ++ fieldRows shaped.data ++
    ["", s!"  borsh == reader: {shaped.data == handRead.data}",
      s!"  borsh == layout: {shaped.data == laidOut.data}",
      s!"  raw borrowed:    {held.isBorrowed}"] ++
    heading "JSON" ++ [held.detach.event.toJson.prettyText]

def report : CommandLine.Report := .ofLines lines

end TaggedPayload.Demo.SwapEvent
