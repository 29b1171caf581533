import TaggedPayload.Demo.Transcript
import TaggedPayload.Event.Dispatch
import TaggedPayload.Matching.Exact
import TaggedPayload.Registry.Basic
import TaggedPayload.Registry.ProgramLog
import TaggedPayload.Text.Quoted

/-!
# A walk through dispatch

Decoders of all four sorts in one registry, with and without a program of their own and with a
fallback: single payloads with and without a program, the table of tags, and payloads from a
program's log that are decoded and handed to a processor.
-/

set_option autoImplicit false

namespace TaggedPayload.Demo.Dispatch

def programText : String := "whirLbMiicVdio4qvUfM5KAg6Ct8VwpYzGff3uctyCc"

/-- A decoder of an event that counts the bytes of the payload. -/
def counting (name : String) (program : AccountKey) : TaggedDecoder :=
  ⟨name, program, .ofEvent name, fun bs => .ok (.uint bs.length)⟩

def memoLead : Bytes := Text.utf8Of "memo:"

/-- Payloads that start with the lead, and the text behind it. -/
def memo : FunctionDecoder where
  name := "Memo"
  program := .zero
  accepts bs := memoLead.isPrefixOf bs
  decode bs :=
    match Text.readUtf8 (bs.drop memoLead.length) with
    | .ok s => .ok ⟨"Memo", .text s, bs, .zero, none⟩
    | .error f => .error (.failure "Memo" f.message)

/-- Any payload that has room for a tag, as bytes. -/
def unknown : GatedDecoder :=
  ⟨"Unknown", .zero, Tag.width, fun bs => .ok (.bytes bs)⟩

def liquidity : Decoder :=
  .composite "Liquidity" .zero
    [.tagged (counting "IncreaseLiquidity" .zero), .tagged (counting "DecreaseLiquidity" .zero)]

def entries (program : AccountKey) : List (String × Handle) :=
  [("swap", ⟨.shared 0, .tagged (counting "Swap" program)⟩),
    ("generic_swap", ⟨.shared 1, .tagged (counting "Swap" .zero)⟩),
    ("liquidity", ⟨.shared 2, liquidity⟩), ("memo", ⟨.shared 3, .function memo⟩)]

def registry (program : AccountKey) : Except RegistryError Registry :=
  (Registry.empty.registerAll (entries program)).map fun r =>
    r.setFallback ⟨.shared 4, .gated unknown⟩

def duplicateLine (r : Registry) (program : AccountKey) : List String :=
  match r.register "swap" ⟨.shared 5, .tagged (counting "Swap" program)⟩ with
  | .ok _ => []
  | .error e => [s!"  duplicate:  {e.message}"]

def swap : Bytes := (Tag.ofEvent "Swap").bytes ++ [1, 2, 3]

def decrease : Bytes := (Tag.ofEvent "DecreaseLiquidity").bytes

def outcome (shown : Event → String) : Except DecodeError Event → String
  | .ok e => shown e
  | .error e => "✗ " ++ e.message

def dispatchRow (r : Registry) (label : String) (data : Bytes) (program : Option AccountKey) :
    String :=
  row 14 label <| outcome (fun e => s!"{e.name} (program {e.program.text})") (r.decode data program)

def singleRows (r : Registry) (program : AccountKey) : List String :=
  [dispatchRow r "swap (amm)" swap (some program), dispatchRow r "swap (any)" swap none,
    dispatchRow r "decrease" decrease none,
    dispatchRow r "memo" (memoLead ++ Text.utf8Of "gm") none,
    dispatchRow r "16-byte blob" (List.replicate 16 0x42) none,
    row 14 "3 bytes" (outcome (·.name) (r.decode [1, 2, 3] none))]

def matcherRows (program : AccountKey) : List String :=
  let m := ExactMatcher.ofList [counting "Swap" program, counting "IncreaseLiquidity" .zero]
  let hit :=
    match m.matchOne (.ofEvent "Swap") with
    | some d => s!"Some({Text.quoted d.name})"
    | none => "None"
  let decoded :=
    match m.decode decrease with
    | .ok e => e.name
    | .error e => e.message
  [s!"  Swap → {hit}", s!"  decode(decrease) → {decoded}"]

def log : List String :=
  [s!"Program {(AccountKey.mk (List.replicate 32 7) rfl).text} invoke [1]",
    ProgramLog.lead ++ Text.hex swap, "Program log: Instruction: Swap",
    ProgramLog.lead ++ "6d656d6f3a6869"]

def printer : Processor (List String) where
  name := "printer"
  offer e lines := (.ok true, lines ++ [s!"    → {e.name} {e.data.display}"])

def logRows (r : Registry) (program : AccountKey) : List String :=
  let events := r.decodeLog ProgramLog.trimmedPayloads log (some program)
  let d := TaggedPayload.Dispatch.run [printer] events []
  d.state ++ [s!"  {d.handled} / {events.length} events handled"]

def lines : Except CommandLine.Failure (List String) := do
  let program ← (AccountKey.ofText programText).mapError (.plain ·.message)
  let r ← (registry program).mapError (.plain ·.message)
  return title "Registry Dispatch" ++
    ["  registered: " ++ Text.bracketed (r.names.map Text.quoted)] ++ duplicateLine r program ++
    heading "Single dispatch" ++ singleRows r program ++
    heading "Exact matcher" ++ matcherRows program ++
    heading "Program logs" ++ logRows r program

def report : CommandLine.Report := .ofLines lines

end TaggedPayload.Demo.Dispatch
