import TaggedPayload.Event.Basic
import TaggedPayload.TaggedBuffer

/-!
# Decoders

A decoder says which payloads it accepts and turns an accepted payload into an event. There are
four sorts: a pair of functions; a least length; a tag; and an ordered set of members, of which the
first that accepts a payload decodes it. Every decoder also works on a buffer whose tag is already
split off; tagged decoders then compare tags only.
-/

set_option autoImplicit false

namespace TaggedPayload

/-- Turns bytes into a value, or says in words why it cannot. -/
abbrev PayloadReader := Bytes → Except String Value

/-- Two functions of its maker; the second is asked for accepted payloads only. -/
structure FunctionDecoder where
  name : String
  program : AccountKey
  accepts : Bytes → Bool
  decode : Bytes → Except DecodeError Event

/-- Accepts payloads of at least a length and reads them whole. -/
structure GatedDecoder where
  name : String
  program : AccountKey
  least : Nat
  read : PayloadReader

/-- Accepts payloads that start with its tag and reads what follows it. -/
structure TaggedDecoder where
  name : String
  program : AccountKey
  tag : Tag
  read : PayloadReader

inductive Decoder
  | function (d : FunctionDecoder)
  | gated (d : GatedDecoder)
  | tagged (d : TaggedDecoder)
  | composite (name : String) (program : AccountKey) (members : List Decoder)

namespace TaggedDecoder

def accepts (d : TaggedDecoder) (data : Bytes) : Bool :=
  Tag.leading? data == some d.tag

/-- The event of an accepted payload, given whole and without its tag. -/
def event (d : TaggedDecoder) (whole payload : Bytes) : Except DecodeError Event :=
  match d.read payload with
  | .ok v => .ok ⟨d.name, v, whole, d.program, some d.tag⟩
  | .error cause => .error (.failure d.name cause)

def decode (d : TaggedDecoder) (data : Bytes) : Except DecodeError Event :=
  if d.accepts data then d.event data (data.drop Tag.width)
  else .error (.ofMismatch d.name d.tag data)

def acceptsBuffer (d : TaggedDecoder) (b : TaggedBuffer) : Bool :=
  b.tag == d.tag

def decodeBuffer (d : TaggedDecoder) (b : TaggedBuffer) : Except DecodeError Event :=
  if d.acceptsBuffer b then d.event b.bytes b.payload
  else .error (.ofMismatch d.name d.tag b.bytes)

end TaggedDecoder

namespace Decoder

def name : Decoder → String
  | function d => d.name
  | gated d => d.name
  | tagged d => d.name
  | composite n _ _ => n

/-- The program a decoder is for; the zero key stands for any. -/
def program : Decoder → AccountKey
  | function d => d.program
  | gated d => d.program
  | tagged d => d.program
  | composite _ p _ => p

mutual

/-- Whether a decoder accepts a payload. No payload is read for that. -/
def accepts (data : Bytes) : Decoder → Bool
  | function d => d.accepts data
  | gated d => decide (d.least ≤ data.length)
  | tagged d => d.accepts data
  | composite _ _ ds => anyAccepts data ds

def anyAccepts (data : Bytes) : List Decoder → Bool
  | [] => false
  | d :: ds => accepts data d || anyAccepts data ds

end

mutual

def decode (data : Bytes) : Decoder → Except DecodeError Event
  | function d => if d.accepts data then d.decode data else .error (.noneAccepts d.name)
  | gated d =>
    if d.least ≤ data.length then
      match d.read data with
      | .ok v => .ok ⟨d.name, v, data, d.program, none⟩
      | .error cause => .error (.failure d.name cause)
    else .error (.tooShort d.least data.length)
  | tagged d => d.decode data
  | composite n _ ds => decodeFirst data n ds

/-- The outcome of the first member that accepts. -/
def decodeFirst (data : Bytes) (owner : String) : List Decoder → Except DecodeError Event
  | [] => .error (.noneAccepts owner)
  | d :: ds => if accepts data d then decode data d else decodeFirst data owner ds

end

mutual

def acceptsBuffer (b : TaggedBuffer) : Decoder → Bool
  | tagged d => d.acceptsBuffer b
  | composite _ _ ds => anyAcceptsBuffer b ds
  | function d => accepts b.bytes (function d)
  | gated d => accepts b.bytes (gated d)

def anyAcceptsBuffer (b : TaggedBuffer) : List Decoder → Bool
  | [] => false
  | d :: ds => acceptsBuffer b d || anyAcceptsBuffer b ds

end

mutual

def decodeBuffer (b : TaggedBuffer) : Decoder → Except DecodeError Event
  | tagged d => d.decodeBuffer b
  | composite n _ ds => decodeFirstBuffer b n ds
  | function d => decode b.bytes (function d)
  | gated d => decode b.bytes (gated d)

def decodeFirstBuffer (b : TaggedBuffer) (owner : String) :
    List Decoder → Except DecodeError Event
  | [] => .error (.noneAccepts owner)
  | d :: ds => if acceptsBuffer b d then decodeBuffer b d else decodeFirstBuffer b owner ds

end

/-- The decoder with more members, if it is a composite. -/
def push (more : List Decoder) : Decoder → Decoder
  | composite n p ds => composite n p (ds ++ more)
  | d => d

end Decoder

end TaggedPayload
