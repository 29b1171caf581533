import TaggedPayload.Event.Basic
import TaggedPayload.LogRecord

/-!
# Handing events to processors

Every event is offered to every processor: events in order, and for each event the processors in
order. A processor says whether it handled the event or fails; a failure is reported and stops
nothing. Processors may keep state, which is threaded through the calls.
-/

set_option autoImplicit false

namespace TaggedPayload

inductive PluginError
  | setup (plugin reason : String)
  | process (processor reason : String)
  | other (text : String)
deriving DecidableEq, Repr

def PluginError.message : PluginError → String
  | setup p r => s!"Plugin '{p}' failed to initialize: {r}"
  | process p r => s!"Processor '{p}' failed: {r}"
  | other t => t

structure Processor (σ : Type) where
  name : String
  offer : Event → σ → Except PluginError Bool × σ

structure Dispatch (σ : Type) where
  /-- Events that some processor handled. -/
  handled : Nat
  records : List LogRecord
  state : σ

namespace Dispatch

variable {σ : Type}

def failureRecord (p : Processor σ) (e : Event) (fault : PluginError) : LogRecord where
  level := .warn
  target := "progcodec_core::pipeline"
  message := s!"event processor failed: {fault.message}"
  fields := [("processor", p.name), ("event", e.name)]

/-- Offers one event to the processors: whether one handled it, the reports, and the state. -/
def offerAll (e : Event) : List (Processor σ) → σ → Bool × List LogRecord × σ
  | [], s => (false, [], s)
  | p :: ps, s =>
    let (verdict, s) := p.offer e s
    let (any, records, s) := offerAll e ps s
    match verdict with
    | .ok b => (b || any, records, s)
    | .error fault => (any, failureRecord p e fault :: records, s)

def run (processors : List (Processor σ)) : List Event → σ → Dispatch σ
  | [], s => ⟨0, [], s⟩
  | e :: es, s =>
    let (any, records, s) := offerAll e processors s
    let later := run processors es s
    ⟨(if any then 1 else 0) + later.handled, records ++ later.records, later.state⟩

end Dispatch

end TaggedPayload
