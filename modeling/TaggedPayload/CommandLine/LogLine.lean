import TaggedPayload.Json.Writer
import TaggedPayload.LogRecord

/-!
# Log lines

How records are printed: each on a line of its own, as text or as JSON. Warnings are always printed,
other records only if they are asked for.
-/

set_option autoImplicit false

namespace TaggedPayload.LogRecord

def isPrinted (verbose : Bool) (r : LogRecord) : Bool :=
  verbose || r.level == .warn

def textLine (r : LogRecord) : String :=
  " ".intercalate ([r.level.name, r.target ++ ":", r.message] ++
    r.fields.map fun f => f.1 ++ "=" ++ f.2)

def jsonLine (r : LogRecord) : String :=
  let details := ("message", Json.string r.message) :: r.fields.map fun f => (f.1, .string f.2)
  (Json.object [("level", .string r.level.name), ("fields", .object details),
    ("target", .string r.target)]).text

end TaggedPayload.LogRecord
