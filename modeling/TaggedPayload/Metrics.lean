import TaggedPayload.DecodeError
import TaggedPayload.Event.Basic

/-!
# Metrics

What is counted and measured about decoding, as data: the instruments, and for each occurrence the
measurements with their attributes. The time of a batch is given in milliseconds, as a double.
-/

set_option autoImplicit false

namespace TaggedPayload

inductive InstrumentKind
  | counter
  | histogram
  | floatHistogram
deriving DecidableEq, Repr

structure Instrument where
  name : String
  kind : InstrumentKind
  description : String
deriving DecidableEq, Repr

inductive Measure
  | count (n : Nat)
  | float (x : Float)

structure Measurement where
  instrument : Instrument
  value : Measure
  attributes : List (String × String)

namespace Metrics

def eventsDecoded : Instrument :=
  ⟨"progcodec.events_decoded", .counter, "Total number of successfully decoded events"⟩

def itemsSkipped : Instrument :=
  ⟨"progcodec.items_skipped", .counter, "Payloads a batch dropped without producing an event"⟩

def decodeErrors : Instrument :=
  ⟨"progcodec.decode_errors", .counter, "Payloads that failed to decode, by error kind"⟩

def batchSize : Instrument :=
  ⟨"progcodec.batch_size", .histogram, "Number of payloads in a batch decode request"⟩

def batchLatency : Instrument :=
  ⟨"progcodec.batch_latency_ms", .floatHistogram, "Wall time of a batch decode in milliseconds"⟩

def instruments : List Instrument :=
  [eventsDecoded, itemsSkipped, decodeErrors, batchSize, batchLatency]

def ofEvent (e : Event) : List Measurement :=
  [⟨eventsDecoded, .count 1, [("program", e.program.text), ("event", e.name)]⟩]

def ofError (program : String) (e : DecodeError) : List Measurement :=
  [⟨decodeErrors, .count 1, [("program", program), ("error_type", e.label)]⟩]

def milliseconds (seconds nanoseconds : Nat) : Float :=
  (seconds.toUInt64.toFloat + nanoseconds.toUInt64.toFloat / 1000000000) * 1000

/-- One finished batch; skipped payloads are counted only if there are any. -/
def ofBatch (program : String) (total decoded seconds nanoseconds : Nat) : List Measurement :=
  let attributes := [("program", program)]
  [⟨batchSize, .count total, attributes⟩,
    ⟨batchLatency, .float (milliseconds seconds nanoseconds), attributes⟩] ++
    if decoded < total then [⟨itemsSkipped, .count (total - decoded), attributes⟩] else []

end Metrics

end TaggedPayload
