import TaggedPayload.Batch.Sequential
import TaggedPayload.Binary.Chunks

/-!
# Fan-out

A batch is cut into contiguous chunks, one for each worker. A worker goes through its chunk payload
by payload: it looks at the cancellation token, takes the payload up, decodes it and sends the
outcome with the payload's index. When all workers have stopped, the messages are put into slots by
their indices, so the order of sending does not show in the result. Workers take turns as a schedule
says; the schedule also says when the token is cancelled.
-/

set_option autoImplicit false

namespace TaggedPayload

abbrev Outcome := Except DecodeError Event

inductive WorkerPhase
  /-- Look at the token, or stop at the end of the chunk. -/
  | look
  | takeUp
  | decode
  | send (outcome : Outcome)
  | stopped

structure Worker where
  /-- Index of the first pending payload. -/
  next : Nat
  pending : List Bytes
  phase : WorkerPhase

structure FanoutSetup where
  decode : Bytes → Outcome
  /-- Failures are sent, too. -/
  collectErrors : Bool

structure Fanout where
  workers : Array Worker
  cancelled : Bool
  processed : Nat
  /-- Messages in the channel, last first. -/
  channel : List (Nat × Outcome)

inductive Turn
  | advance (worker : Nat)
  | cancel
deriving DecidableEq, Repr

namespace Fanout

/-- How many workers a request gets for `n` payloads; a request of zero asks for four. -/
def workerCount (requested n : Nat) : Nat :=
  max 1 (min (if requested = 0 then 4 else requested) n)

/-- Payloads of a chunk: `n` over the number of workers, rounded up. -/
def chunkSize (n workers : Nat) : Nat :=
  (n + workers - 1) / workers

def workersFrom (start : Nat) : List (List Bytes) → List Worker
  | [] => []
  | c :: cs => ⟨start, c, .look⟩ :: workersFrom (start + c.length) cs

def start (cancelled : Bool) (chunks : List (List Bytes)) : Fanout :=
  ⟨(workersFrom 0 chunks).toArray, cancelled, 0, []⟩

/-- A worker's turn: the worker after it, whether it took a payload up, and what it sent. -/
def Worker.turn (setup : FanoutSetup) (cancelled : Bool) (w : Worker) :
    Worker × Nat × Option (Nat × Outcome) :=
  match w.phase, w.pending with
  | .stopped, _ => (w, 0, none)
  | _, [] => ({ w with phase := .stopped }, 0, none)
  | .look, _ => ({ w with phase := if cancelled then .stopped else .takeUp }, 0, none)
  | .takeUp, _ => ({ w with phase := .decode }, 1, none)
  | .decode, data :: _ => ({ w with phase := .send (setup.decode data) }, 0, none)
  | .send o, _ :: rest =>
    (⟨w.next + 1, rest, .look⟩, 0,
      if o.isOk || setup.collectErrors then some (w.next, o) else none)

def step (setup : FanoutSetup) (f : Fanout) : Turn → Fanout
  | .cancel => { f with cancelled := true }
  | .advance i =>
    match f.workers[i]? with
    | none => f
    | some w =>
      let (w, taken, sent) := Worker.turn setup f.cancelled w
      { f with
        workers := f.workers.setIfInBounds i w
        processed := f.processed + taken
        channel := sent.toList ++ f.channel }

def run (setup : FanoutSetup) (f : Fanout) : List Turn → Fanout
  | [] => f
  | t :: ts => run setup (f.step setup t) ts

def isDone (f : Fanout) : Bool :=
  f.workers.all fun w => w.phase matches .stopped

def slots (f : Fanout) (n : Nat) : Array (Option Outcome) :=
  f.channel.foldr (fun m slots => slots.setIfInBounds m.1 (some m.2)) (Array.replicate n none)

def sortOut : (index : Nat) → List (Option Outcome) → List Event × List (Nat × DecodeError)
  | _, [] => ([], [])
  | index, o :: os =>
    let (events, errors) := sortOut (index + 1) os
    match o with
    | some (.ok e) => (e :: events, errors)
    | some (.error fault) => (events, (index, fault) :: errors)
    | none => (events, errors)

def result (f : Fanout) (n : Nat) : BatchResult :=
  let (events, errors) := sortOut 0 (f.slots n).toList
  ⟨events, errors, n⟩

/-! ## One worker after another -/

/-- The turns of a worker over `length` payloads, the first of which has an index; the token is
cancelled while the payload `cancelAt` is decoded. -/
def chunkTurns (worker : Nat) (cancelAt : Option Nat) : (start length : Nat) → List Turn
  | _, 0 => [.advance worker]
  | start, n + 1 =>
    [.advance worker, .advance worker] ++ (if cancelAt = some start then [.cancel] else []) ++
      [.advance worker, .advance worker] ++ chunkTurns worker cancelAt (start + 1) n

/-- The schedule in which each worker finishes before the next one starts. -/
def inOrder (cancelAt : Option Nat) : (worker start : Nat) → List (List Bytes) → List Turn
  | _, _, [] => []
  | worker, start, c :: cs =>
    chunkTurns worker cancelAt start c.length ++
      inOrder cancelAt (worker + 1) (start + c.length) cs

end Fanout

inductive Cancellation
  | never
  | beforehand
  /-- While the payload that is taken up as the `count`-th is decoded. -/
  | during (count : Nat)
deriving DecidableEq, Repr

namespace Cancellation

def isBeforehand (c : Cancellation) : Bool := c == beforehand

def index? : Cancellation → Option Nat
  | during (n + 1) => some n
  | _ => none

end Cancellation

structure Cancelled where
  processed : Nat
deriving DecidableEq, Repr

def Cancelled.message (c : Cancelled) : String :=
  s!"Batch canceled after {c.processed} items; partial results discarded"

namespace Candidates

/-- The machine of a batch after its last turn, and the records. -/
def fanout (c : Candidates) (payloads : List Bytes) (workers : Nat) (collectErrors : Bool)
    (cancellation : Cancellation) : Fanout × List LogRecord :=
  let n := payloads.length
  let w := Fanout.workerCount workers n
  let size := Fanout.chunkSize n w
  let cs := chunks size payloads
  let f := (Fanout.start cancellation.isBeforehand cs).run ⟨c.decodeItem, collectErrors⟩
    (Fanout.inOrder cancellation.index? 0 0 cs)
  (f, if n = 0 then [] else
    [batchRecord .debug
      s!"BatchDecoder: parallel decode of {n} payloads, {w} workers, chunk_size={size}"])

def parallelBatch (c : Candidates) (payloads : List Bytes) (workers : Nat) (collectErrors : Bool) :
    BatchResult × List LogRecord :=
  let (f, records) := c.fanout payloads workers collectErrors .never
  (f.result payloads.length, records)

/-- A batch over several workers that may be cancelled: then there are no events. -/
def cancellableBatch (c : Candidates) (payloads : List Bytes) (workers : Nat)
    (cancellation : Cancellation) : Except Cancelled (List Event) × List LogRecord :=
  let (f, records) := c.fanout payloads workers false cancellation
  if f.cancelled then
    (.error ⟨f.processed⟩, records ++
      [batchRecord .warn
        s!"BatchDecoder: canceled after {f.processed} of {payloads.length} payloads"])
  else (.ok (f.result payloads.length).events, records)

end Candidates

end TaggedPayload
