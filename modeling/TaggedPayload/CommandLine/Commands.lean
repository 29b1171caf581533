import TaggedPayload.AccountBuffer
import TaggedPayload.CommandLine.Help
import TaggedPayload.CommandLine.Inputs
import TaggedPayload.Decoder.Description
import TaggedPayload.Event.Json

/-!
# Carrying out commands

Each command turns its arguments and the files it reads into a report. A command that fails prints
nothing but the failure.
-/

set_option autoImplicit false

namespace TaggedPayload.CommandLine

def version : String := "0.1.0"

def discriminatorReport (name : String) (kind : LayoutKind) : Report :=
  let t := kind.tag name
  .success [t.text, Bytes.listing t.bytes]

def accountJson (b : AccountBuffer) : Json :=
  .object [("complete", .bool b.isComplete), ("data", .string (Text.markedHex b.data)),
    ("data_len", .nat b.declaredLength), ("executable", .bool b.executable),
    ("lamports", .nat b.lamports), ("owner", b.owner.toJson), ("pubkey", b.key.toJson),
    ("rent_epoch", .nat b.rentEpoch)]

def accountLines (b : AccountBuffer) : List String :=
  [s!"Pubkey:     {b.key.text}", s!"Lamports:   {b.lamports}",
    s!"Data:       {b.data.length} bytes (declared {b.declaredLength})",
    s!"Owner:      {b.owner.text}", s!"Executable: {b.executable}",
    s!"Rent epoch: {b.rentEpoch}"] ++
  if b.isComplete then []
  else
    let least := AccountBuffer.leastSize
    [s!"⚠ buffer is truncated ({b.bytes.length} bytes, at least {least} expected)"]

def accountReport (hex : String) (json : Bool) : Report :=
  .ofLines do
    let b : AccountBuffer := ⟨← readPayload hex⟩
    return if json then [(accountJson b).prettyText] else accountLines b

def eventReport (hex : String) : Report :=
  .ofLines do
    let bs ← readPayload hex
    match TaggedBuffer.ofBytes bs with
    | .error e => .error (Failure.ofDecodeError e)
    | .ok b =>
      return [s!"Discriminator: {b.tag.text}", s!"Payload:       {b.payload.length} bytes",
        s!"               {Text.markedHex b.payload}"]

def layoutLines (l : Layout) : List String :=
  [s!"✓ Layout '{l.name}' ({l.kind.title})"] ++
  (if l.program.isZero then [] else [s!"  Program:       {l.program.text}"]) ++
  [s!"  Discriminator: {l.tag.text}", s!"  Fields:        {l.fields.length}"] ++
  l.fields.map fun f => "    - " ++ f.1 ++ ": " ++ f.2.name

def parseReport (files : Files) (file : String) : Report :=
  .ofLines do
    let text ← files.read "layout file" file
    match Layout.readAll text with
    | .error f => .error ⟨s!"parse '{file}'", [(RegistryError.layout f).message]⟩
    | .ok ls => return ls.flatMap layoutLines ++ ["", s!"{ls.length} layouts valid"]

def eventLines (e : Event) : List String :=
  [s!"Event:   {e.name}"] ++ (e.tag.map fun t => s!"Discriminator: {t.text}").toList ++
  ["Fields:"] ++
  match e.data with
  | .record fs => fs.map fun f => "  " ++ f.1 ++ ": " ++ f.2.display
  | v => ["  " ++ v.display]

def loadedRecord (r : Registry) (path : String) : LogRecord :=
  ⟨.debug, "progcodec", "layouts registered", [("loaded", Text.natText r.size), ("path", path)]⟩

def decodeReport (files : Files) (layouts hex : String) (program : Option String) (json : Bool) :
    Report :=
  match readLayouts files layouts with
  | .error f => .failure f
  | .ok registry =>
    { Report.ofLines do
        let p ← readProgram program
        let bs ← readPayload hex
        match registry.decode bs p with
        | .error e => .error (Failure.ofDecodeError e)
        | .ok e => return if json then [e.toJson.prettyText] else eventLines e with
      records := [loadedRecord registry layouts] }

def batchLines (r : BatchResult) (json : Bool) : List String :=
  if json then [(Json.array (r.events.map Event.toJson)).prettyText]
  else r.events.map fun e => e.name ++ ": " ++ e.data.display

def batchNotes (r : BatchResult) (json : Bool) : List Line :=
  (if json then [] else r.errors.map fun (i, e) => Line.text s!"  ✗ #{i}: {e.message}") ++
  [.text "", .timed fun seconds =>
    s!"Decoded {r.events.length} / {r.total} payloads, {r.errors.length} errors in " ++
      s!"{fixed 3 seconds}s ({rate r.total seconds} payloads/sec)"]

def batchReport (files : Files) (layouts input : String) (program config : Option String)
    (workers : Option Nat) (json : Bool) : Report :=
  match readLayouts files layouts with
  | .error f => .failure f
  | .ok registry =>
    let loaded := loadedRecord registry layouts
    let job : Except Failure (BatchResult × List LogRecord) := do
      let p ← readProgram program
      let c ← readBatchConfig files config
      let text ← files.read "input" input
      let payloads ← readPayloads text
      return (registry.candidates p).batch { c with workers := workers.getD c.workers } payloads
    match job with
    | .error f => { Report.failure f with records := [loaded] }
    | .ok (r, records) =>
      ⟨0, (batchLines r json).map .text, batchNotes r json, loaded :: records⟩

/-- Targets of a measurement: every other one is a candidate, the rest are not. -/
def benchTargets (candidates : Array Tag) (count : Nat) : List Tag :=
  let missing := (Array.range 1024).map fun i => Tag.ofEvent s!"Missing{i}"
  (List.range count).map fun i =>
    let other := missing.getD (i % 1024) (.ofEvent "Missing")
    if i % 2 = 0 then candidates.getD (i % candidates.size) other else other

def matchBenchReport (candidates targets : Nat) (strategy : MatchStrategy) : Report :=
  let tags := (List.range candidates).map fun i => Tag.ofEvent s!"Event{i}"
  let m := StrategyMatcher.ofList tags strategy
  let hits := ((m.matchBatch (benchTargets tags.toArray targets)).filter Option.isSome).length
  { exitCode := 0
    out :=
      [.text (s!"Matching {targets} targets against {candidates} candidates " ++
          s!"(strategy={strategy.name}, effective={(m.effective targets).name}) ..."),
        .text "Results:", .text s!"  Hits:       {hits}",
        .timed fun seconds => s!"  Duration:   {fixed 3 seconds}s",
        .timed fun seconds => s!"  Throughput: {rate targets seconds} lookups/sec"]
    err := []
    records := [m.madeRecord] }

def infoReport : Report :=
  .success ["progcodec v" ++ version, "", "Capabilities:",
    "  ✓ Zero-copy account / event views",
    "  ✓ Discriminator, length-gated, composite and closure decoders",
    "  ✓ YAML layouts               (multi-doc, ordered fields)",
    "  ✓ Registry dispatch          (program bucket → all → fallback)",
    "  ✓ Parallel batch decode      (Rayon + crossbeam, ordered)",
    "  ✓ Discriminator matching     (map / vectorized / auto)",
    "  ✓ Metrics                    (OpenTelemetry)"]

def Command.run (files : Files) : Command → Report
  | discriminator name kind => discriminatorReport name kind
  | account hex json => accountReport hex json
  | event hex => eventReport hex
  | parse file => parseReport files file
  | decode layouts hex program json => decodeReport files layouts hex program json
  | batch layouts input program config workers json =>
    batchReport files layouts input program config workers json
  | matchBench candidates targets strategy => matchBenchReport candidates targets strategy
  | info => infoReport

def Notice.report : Notice → Report
  | misuse => ⟨2, [], [.text usage], []⟩
  | version => .success ["progcodec " ++ CommandLine.version]
  | help full => .success (programHelp full)
  | commandHelp form => .success (CommandLine.commandHelp form)
  | helpHelp => .success CommandLine.helpHelp

def answer (files : Files) (args : List String) : Report :=
  match Invocation.ofArguments args with
  | .ok i => i.command.run files
  | .error n => n.report

end TaggedPayload.CommandLine
