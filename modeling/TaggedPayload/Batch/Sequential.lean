import TaggedPayload.Batch.Item
import TaggedPayload.LogRecord

/-!
# Sequential batches

Payloads are decoded in order. Failures are dropped, or kept with the index of their payload. With
a bound on failures, the batch ends at the payload that reaches it; what was decoded until then is
the result.
-/

set_option autoImplicit false

namespace TaggedPayload

structure BatchOptions where
  collectErrors : Bool
  /-- End after this many failures; zero for no end. -/
  maxErrors : Nat
deriving DecidableEq, Repr

structure BatchResult where
  events : List Event
  /-- Indices of payloads and their errors, if errors are collected. -/
  errors : List (Nat × DecodeError)
  /-- How many payloads the batch was given. -/
  total : Nat
deriving DecidableEq

def batchRecord (level : LogLevel) (message : String) : LogRecord :=
  ⟨level, "progcodec_batch::engine", message, []⟩

/-- What a sequential run has found, and where it ended early after how many failures. -/
structure Tally where
  events : List Event
  errors : List (Nat × DecodeError)
  stopped : Option (Nat × Nat)

def tally (decode : Bytes → Except DecodeError Event) (options : BatchOptions) :
    (index failed : Nat) → List Bytes → Tally
  | _, _, [] => ⟨[], [], none⟩
  | index, failed, data :: rest =>
    match decode data with
    | .ok e =>
      let t := tally decode options (index + 1) failed rest
      { t with events := e :: t.events }
    | .error fault =>
      let kept := if options.collectErrors then [(index, fault)] else []
      if 0 < options.maxErrors ∧ options.maxErrors ≤ failed + 1 then
        ⟨[], kept, some (index, failed + 1)⟩
      else
        let t := tally decode options (index + 1) (failed + 1) rest
        { t with errors := kept ++ t.errors }

namespace Candidates

def sequentialBatch (c : Candidates) (payloads : List Bytes) (options : BatchOptions) :
    BatchResult × List LogRecord :=
  let t := tally c.decodeItem options 0 0 payloads
  let opening := batchRecord .debug
    s!"BatchDecoder: sequential decode of {payloads.length} payloads against {c.size} candidates"
  let ending := t.stopped.toList.map fun (index, failed) =>
    batchRecord .warn s!"BatchDecoder: stopping at index {index} after {failed} errors"
  (⟨t.events, t.errors, payloads.length⟩, opening :: ending)

end Candidates

end TaggedPayload
