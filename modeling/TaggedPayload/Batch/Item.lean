import TaggedPayload.Registry.Candidates

/-!
# One payload of a batch

Best-effort dispatch goes on when a decoder accepts a payload and then fails: the next one that
accepts gets its turn, and the last error counts if none succeeds. A payload without a tag is an
error at once.
-/

set_option autoImplicit false

namespace TaggedPayload

/-- Asks handles in order; `last` is the error of the last one that accepted and failed. -/
def searchBuffer (b : TaggedBuffer) (last : Option DecodeError) :
    List Handle → Except DecodeError Event
  | [] => .error (last.getD (.noneAccepts "registry"))
  | h :: hs =>
    if h.decoder.acceptsBuffer b then
      match h.decoder.decodeBuffer b with
      | .ok e => .ok e
      | .error fault => searchBuffer b (some fault) hs
    else searchBuffer b last hs

/-- Best-effort dispatch of one payload. -/
def Candidates.decodeItem (c : Candidates) (data : Bytes) : Except DecodeError Event :=
  match TaggedBuffer.ofBytes data with
  | .ok b => searchBuffer b none c.all
  | .error e => .error e

end TaggedPayload
