import TaggedPayload.Batch.Config
import TaggedPayload.CommandLine.Report
import TaggedPayload.Registry.Basic

/-!
# What commands read

Payloads from text, layouts and settings from files, and the payload lines of a batch. Blank lines
and comments are not payload lines; payload lines are counted from one, for the sake of messages.
-/

set_option autoImplicit false

namespace TaggedPayload.CommandLine

inductive FileFault
  | absent
  | denied
  | directory
  /-- The path goes on behind a file. -/
  | notDirectory
  | nameTooLong
  | notText
  | other (reason : String)
deriving DecidableEq, Repr

def FileFault.message : FileFault → String
  | absent => "No such file or directory (os error 2)"
  | denied => "Permission denied (os error 13)"
  | directory => "Is a directory (os error 21)"
  | notDirectory => "Not a directory (os error 20)"
  | nameTooLong => "File name too long (os error 36)"
  | notText => "stream did not contain valid UTF-8"
  | other reason => reason

abbrev Files := String → Except FileFault String

def Files.read (files : Files) (purpose name : String) : Except Failure String :=
  match files name with
  | .ok text => .ok text
  | .error f => .error ⟨s!"read {purpose} '{name}'", [f.message]⟩

/-- Hexadecimal text with blanks around it and perhaps a leading `0x`. -/
def readPayload (s : String) : Except Failure Bytes :=
  match Text.readMarkedHex (Text.trimmed s) with
  | .ok bs => .ok bs
  | .error f => .error ⟨"invalid hex", [f.message]⟩

def readProgram : Option String → Except Failure (Option AccountKey)
  | none => .ok none
  | some s =>
    match AccountKey.ofText s with
    | .ok k => .ok (some k)
    | .error f => .error (.plain f.message)

/-- The registry of a file's layouts, of which there must be one. -/
def readLayouts (files : Files) (name : String) : Except Failure Registry := do
  let text ← files.read "layout file" name
  match Registry.empty.loadLayouts text with
  | .error e => .error (.plain e.message)
  | .ok r => if r.size = 0 then .error (.plain s!"no layouts found in '{name}'") else return r

/-- The payload lines of a text, without blanks around them. -/
def payloadLines (text : String) : List (List Char) :=
  ((Text.segments '\n' text.toList).map Text.trim).filter fun l =>
    !l.isEmpty && l.head? != some '#'

/-- The payloads of payload lines, counted from `n`. -/
def payloadsFrom : (n : Nat) → List (List Char) → Except Failure (List Bytes)
  | _, [] => .ok []
  | n, l :: ls =>
    match readPayload (String.ofList l) with
    | .error f => .error (f.inContext s!"line {n}")
    | .ok bs => (payloadsFrom (n + 1) ls).map (bs :: ·)

/-- The payloads of a text; the first line that is no payload is reported. -/
def readPayloads (text : String) : Except Failure (List Bytes) :=
  payloadsFrom 1 (payloadLines text)

/-- The settings of a batch; without a file, all failures are collected. -/
def readBatchConfig (files : Files) : Option String → Except Failure BatchConfig
  | none => .ok (BatchConfig.usual.collecting 0)
  | some name => do
    let text ← files.read "batch config" name
    match BatchConfig.ofYaml? text with
    | some c => return c
    | none => .error ⟨"Invalid YAML batch config: malformed", ["malformed"]⟩

end TaggedPayload.CommandLine
