import TaggedPayload.Batch.Fanout
import TaggedPayload.Json.Members
import TaggedPayload.Yaml.Members

/-!
# Batch settings

How a batch is carried out: over how many workers, what happens to failures, and from which length
on it is worth fanning out. A bound on failures needs them counted in order, so such a batch is
always sequential. Settings are written in YAML or JSON; each may be given once, missing ones have
their usual values, and names that are no settings do not count.
-/

set_option autoImplicit false

namespace TaggedPayload

structure BatchConfig where
  /-- Workers; zero for the usual number. -/
  workers : Nat
  collectErrors : Bool
  /-- End after this many failures; zero for no end. -/
  maxErrors : Nat
  /-- Batches of at least this length are fanned out. -/
  parallelThreshold : Nat
deriving DecidableEq, Repr

namespace BatchConfig

def usual : BatchConfig := ⟨4, false, 0, 4096⟩

def collecting (c : BatchConfig) (maxErrors : Nat) : BatchConfig :=
  { c with collectErrors := true, maxErrors := maxErrors }

def options (c : BatchConfig) : BatchOptions := ⟨c.collectErrors, c.maxErrors⟩

def names : List String := ["workers", "collect_errors", "max_errors", "parallel_threshold"]

def toJson (c : BatchConfig) : Json :=
  .object [("workers", .nat c.workers), ("collect_errors", .bool c.collectErrors),
    ("max_errors", .nat c.maxErrors), ("parallel_threshold", .nat c.parallelThreshold)]

/-! ## Reading -/

/-- Changes one setting; names that are no settings change nothing. -/
def set {α : Type} (size? : α → Option Nat) (bool? : α → Option Bool) (c : BatchConfig)
    (m : String × α) : Option BatchConfig :=
  if m.1 = "workers" then (size? m.2).map fun x => { c with workers := x }
  else if m.1 = "collect_errors" then (bool? m.2).map fun x => { c with collectErrors := x }
  else if m.1 = "max_errors" then (size? m.2).map fun x => { c with maxErrors := x }
  else if m.1 = "parallel_threshold" then
    (size? m.2).map fun x => { c with parallelThreshold := x }
  else some c

def namedOnce {α : Type} (names : List String) (ms : List (String × α)) : Bool :=
  names.all fun n => (ms.filter (·.1 == n)).length ≤ 1

def ofMembers? {α : Type} (size? : α → Option Nat) (bool? : α → Option Bool)
    (ms : List (String × α)) : Option BatchConfig :=
  if namedOnce names ms then ms.foldlM (set size? bool?) usual else none

def ofYaml? (s : String) : Option BatchConfig :=
  (Yaml.onlyDocument? s).bind fun d =>
    d.members?.bind (ofMembers? Yaml.Node.size? Yaml.Node.bool?)

def ofJson (j : Json) : Except JsonFault BatchConfig :=
  match (j.members? names).bind (ofMembers? Json.size? Json.bool?) with
  | some c => .ok c
  | none => .error .malformed

end BatchConfig

namespace Candidates

def batch (c : Candidates) (config : BatchConfig) (payloads : List Bytes) :
    BatchResult × List LogRecord :=
  let n := payloads.length
  let fanned := decide (config.parallelThreshold ≤ n) && config.maxErrors == 0
  let manner := if fanned then "parallel" else "sequential"
  let (result, records) :=
    if fanned then c.parallelBatch payloads config.workers config.collectErrors
    else c.sequentialBatch payloads config.options
  let opening := batchRecord .info
    s!"BatchDecoder: decoding {n} payloads ({manner}, workers={config.workers})"
  let decoded := result.events.length
  let failed := result.errors.length
  let closing := batchRecord .info
    s!"BatchDecoder: complete — {decoded} decoded, {failed} errors"
  (result, opening :: (records ++ [closing]))

end Candidates

end TaggedPayload
