import TaggedPayload.Binary.Cursor
import TaggedPayload.Tag

/-!
# Decode errors

Why one payload was not decoded. Each cause has a short label for measurements and log records and
a text for people.
-/

set_option autoImplicit false

namespace TaggedPayload

inductive DecodeError
  | tooShort (needed got : Nat)
  /-- The payload starts with another tag; both are given as text. -/
  | tagMismatch (decoder expected found : String)
  /-- The decoder accepted the payload and then could not read it. -/
  | failure (decoder cause : String)
  /-- None of the decoder's members accepts the payload. -/
  | noneAccepts (decoder : String)
  /-- No registered decoder accepts the payload. -/
  | notFound
deriving DecidableEq, Repr

namespace DecodeError

def label : DecodeError → String
  | tooShort .. => "invalid_buffer"
  | tagMismatch .. => "discriminator_mismatch"
  | failure .. => "decode_failure"
  | noneAccepts .. => "no_decoder_matched"
  | notFound => "not_found"

def message : DecodeError → String
  | tooShort n g => s!"Invalid buffer: need at least {n} bytes, got {g}"
  | tagMismatch d e f => s!"Discriminator mismatch in '{d}': expected {e}, got {f}"
  | failure d c => s!"Decoder '{d}' failed: {c}"
  | noneAccepts d => s!"No member of '{d}' matched the payload"
  | notFound => "No decoder found for payload"

def ofMismatch (decoder : String) (expected : Tag) (data : Bytes) : DecodeError :=
  tagMismatch decoder expected.text <|
    match Tag.leading? data with
    | some t => t.text
    | none => s!"<{data.length} bytes>"

end DecodeError

end TaggedPayload
