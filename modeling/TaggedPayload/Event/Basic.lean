import TaggedPayload.Tag
import TaggedPayload.Value.Basic

/-!
# Events

What a payload is decoded into: the name of its decoder, the decoded value, the payload itself, the
program the decoder is for and the tag it matched. An event in hand may still share its payload
with the buffer it was decoded from; detaching it changes nothing that can be read from it.
-/

set_option autoImplicit false

namespace TaggedPayload

structure Event where
  name : String
  data : Value
  raw : Bytes
  program : AccountKey
  tag : Option Tag
deriving DecidableEq

def Event.field? (e : Event) (name : String) : Option Value :=
  e.data.field? name

inductive Holding
  /-- It is shared with the buffer it was decoded from. -/
  | borrowed
  | owned
deriving DecidableEq, Repr

structure HeldEvent where
  event : Event
  holding : Holding

namespace HeldEvent

def isBorrowed (h : HeldEvent) : Bool :=
  h.holding == .borrowed

def detach (h : HeldEvent) : HeldEvent :=
  { h with holding := .owned }

end HeldEvent

end TaggedPayload
