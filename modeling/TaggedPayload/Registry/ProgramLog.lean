import TaggedPayload.Text.Blank
import TaggedPayload.Text.Hex

/-!
# Payloads in program logs

Programs write payloads into their logs: a line that starts with a fixed lead and goes on with
hexadecimal text. Lines of any other kind hold no payload.
-/

set_option autoImplicit false

namespace TaggedPayload.ProgramLog

def lead : String := "Program data: "

/-- The payload of a line; `clean` prepares the text behind the lead. -/
def payload? (clean : List Char → List Char) (line : String) : Option Bytes :=
  (Text.after? lead.toList line.toList).bind fun cs => (Text.readHex (clean cs)).toOption

def trimmedPayloads (lines : List String) : List Bytes :=
  lines.filterMap (payload? Text.trim)

/-- The payloads of lines, blanks around the text not allowed. -/
def payloads (lines : List String) : List Bytes :=
  lines.filterMap (payload? id)

end TaggedPayload.ProgramLog
