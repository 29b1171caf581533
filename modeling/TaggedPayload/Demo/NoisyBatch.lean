import TaggedPayload.Batch.Config
import TaggedPayload.Demo.Transcript
import TaggedPayload.Metrics
import TaggedPayload.Registry.Basic

/-!
# Observing a noisy batch

A thousand deposits, of which some are too short for a tag and some break off within the payload:
how many are decoded, how many fail, and what is measured about them.
-/

set_option autoImplicit false

namespace TaggedPayload.Demo.NoisyBatch

def layout : String :=
  "
layout Deposit:
  fields:
    owner: pubkey
    amount: u64
"

/-- The payload of a place: of fifty, the first has no tag and the second breaks off. -/
def payload (i : Nat) : Bytes :=
  let tag := (Tag.ofEvent "Deposit").bytes
  if i % 50 = 0 then List.replicate 4 0
  else if i % 50 = 1 then tag ++ List.replicate 8 0
  else tag ++ List.replicate 32 9 ++ Bytes.ofNat 8 i

def payloads : List Bytes := (List.range 1000).map payload

def result : Except RegistryError BatchResult :=
  (Registry.empty.loadLayouts layout).map fun r =>
    ((r.candidates none).batch (BatchConfig.usual.collecting 0) payloads).1

def instrumentNotes : List (Instrument × String) :=
  [(Metrics.eventsDecoded, "program + event tags"), (Metrics.itemsSkipped, "program tag"),
    (Metrics.decodeErrors, "program + error_type tags"), (Metrics.batchSize, ""),
    (Metrics.batchLatency, "")]

def instrumentRow (n : Instrument × String) : String :=
  let kind :=
    match n.1.kind with
    | .counter => "counter"
    | .histogram => "histogram"
    | .floatHistogram => "histogram"
  let notes := if n.2 = "" then kind else kind ++ ", " ++ n.2
  "  " ++ row 27 n.1.name ("(" ++ notes ++ ")")

def lines : Except CommandLine.Failure (List String) := do
  let r ← result.mapError (.plain ·.message)
  return title "Observability Demo" ++
    [s!"  decoded: {r.events.length}", s!"  errors:  {r.errors.length}", "",
      "  Metrics recorded:"] ++ instrumentNotes.map instrumentRow

def report : CommandLine.Report := .ofLines lines

end TaggedPayload.Demo.NoisyBatch
