import TaggedPayload.Registry.Handle

/-!
# Candidates

The decoders that one dispatch asks, in the order in which it asks them; a fallback comes last.
Strict dispatch takes the outcome of the first decoder that accepts the payload, whether it is an
event or an error.
-/

set_option autoImplicit false

namespace TaggedPayload

structure Candidates where
  ranked : List Handle
  fallback : Option Handle

namespace Candidates

/-- All candidates, the fallback last. -/
def all (c : Candidates) : List Handle :=
  c.ranked ++ c.fallback.toList

def size (c : Candidates) : Nat :=
  c.all.length

def isEmpty (c : Candidates) : Bool :=
  c.size == 0

def resolve (c : Candidates) (data : Bytes) : Option Handle :=
  c.all.find? fun h => h.decoder.accepts data

/-- Strict dispatch of one payload. -/
def decode (c : Candidates) (data : Bytes) : Except DecodeError Event :=
  match c.resolve data with
  | some h => h.decoder.decode data
  | none => .error .notFound

/-- Strict dispatch of each payload; those that fail are left out. -/
def decodeAll (c : Candidates) (payloads : List Bytes) : List Event :=
  payloads.filterMap fun data => (c.decode data).toOption

end Candidates

end TaggedPayload
