import TaggedPayload.CommandLine.Options

/-!
# Commands

The commands of the program and what each needs, read from the arguments. The flags for logging may
stand before and behind the command's name. Where the arguments are not a command to be carried out,
they ask for the version or for help, about the program or one command, or they are misused.
-/

set_option autoImplicit false

namespace TaggedPayload.CommandLine

inductive Command
  | discriminator (name : String) (kind : LayoutKind)
  | account (hex : String) (json : Bool)
  | event (hex : String)
  | parse (file : String)
  | decode (layouts hex : String) (program : Option String) (json : Bool)
  | batch (layouts input : String) (program config : Option String) (workers : Option Nat)
      (json : Bool)
  | matchBench (candidates targets : Nat) (strategy : MatchStrategy)
  | info
deriving DecidableEq

structure Invocation where
  verbose : Bool
  logJson : Bool
  command : Command
deriving DecidableEq

def Command.files : Command → List String
  | parse file => [file]
  | decode layouts _ _ _ => [layouts]
  | batch layouts input _ config _ _ => layouts :: input :: config.toList
  | _ => []

/-! ## Forms -/

def flag (name about : String) : OptionForm :=
  ⟨name, none, .flag, about, false, none⟩

def needed (name about : String) : OptionForm :=
  ⟨name, none, .value .text, about, true, none⟩

def optional (name : String) (sort : ValueSort) (about : String) : OptionForm :=
  ⟨name, none, .value sort, about, false, none⟩

def defaulted (name : String) (sort : ValueSort) (usual : String) : OptionForm :=
  ⟨name, none, .value sort, "", false, some usual⟩

/-- How much `match-bench` does when nothing is said. -/
def usualCandidates : Nat := 32

def usualTargets : Nat := 1000000

def loggingForms : List OptionForm :=
  [⟨"verbose", some 'v', .flag, "Enable debug logging", false, none⟩,
    flag "log-json" "Emit JSON structured logs"]

def helpForm (about : String) : OptionForm :=
  ⟨"help", some 'h', .help, about, false, none⟩

def versionForm : OptionForm :=
  ⟨"version", some 'V', .version, "Print version", false, none⟩

def outerForms : List OptionForm :=
  loggingForms ++ [helpForm "Print help (see more with '--help')", versionForm]

structure CommandForm where
  name : String
  about : String
  /-- The options that only this command takes. -/
  own : List OptionForm
deriving DecidableEq, Repr

def CommandForm.options (f : CommandForm) : List OptionForm :=
  loggingForms ++ helpForm "Print help" :: f.own

def commandForms : List CommandForm :=
  [⟨"discriminator", "Derive the 8-byte discriminator for a name",
      [needed "name" "", defaulted "kind" .kind "event"]⟩,
    ⟨"account", "Inspect a serialized account buffer",
      [needed "hex" "Account bytes (hex, optional 0x prefix)", flag "json" "Output as JSON"]⟩,
    ⟨"event", "Split an event buffer into discriminator and payload", [needed "hex" ""]⟩,
    ⟨"parse", "Parse and validate a layout file",
      [{ needed "file" "Path to the YAML layout file" with letter := some 'f' }]⟩,
    ⟨"decode", "Decode a single payload with layouts from a file",
      [needed "layouts" "", needed "hex" "Payload bytes (hex, optional 0x prefix)",
        optional "program" .text "Program id (base58) the payload was emitted by",
        flag "json" "Output as JSON"]⟩,
    ⟨"batch", "Decode a file of hex payloads, one per line",
      [needed "layouts" "", needed "input" "", optional "program" .text "",
        optional "config" .text
          "YAML batch config (workers, collect_errors, max_errors, parallel_threshold)",
        optional "workers" .size "Override the configured worker count",
        flag "json" "Output events as JSON"]⟩,
    ⟨"match-bench", "Benchmark discriminator matching strategies",
      [defaulted "candidates" .size (Text.natText usualCandidates),
        defaulted "targets" .size (Text.natText usualTargets),
        defaulted "strategy" .strategy MatchStrategy.auto.name]⟩,
    ⟨"info", "Show progcodec build and capability info", []⟩]

def commandForm? (name : String) : Option CommandForm :=
  commandForms.find? (·.name == name)

/-! ## Reading -/

inductive Notice
  | misuse
  | version
  /-- Help about the program, in full or in short. -/
  | help (full : Bool)
  | commandHelp (form : CommandForm)
  | helpHelp
deriving DecidableEq, Repr

namespace Given

def has (g : Given) (name : String) : Bool := g.any (·.1 == name)

def get? (g : Given) (name : String) : Option String := g.lookup name

def needed (g : Given) (name : String) : Except Notice String :=
  match g.get? name with
  | some v => .ok v
  | none => .error .misuse

end Given

def commandOf (name : String) (g : Given) : Except Notice Command := do
  let json := g.has "json"
  match name with
  | "discriminator" =>
    return .discriminator (← g.needed "name")
      (((g.get? "kind").bind LayoutKind.ofText?).getD .event)
  | "account" => return .account (← g.needed "hex") json
  | "event" => return .event (← g.needed "hex")
  | "parse" => return .parse (← g.needed "file")
  | "decode" =>
    return .decode (← g.needed "layouts") (← g.needed "hex") (g.get? "program") json
  | "batch" =>
    return .batch (← g.needed "layouts") (← g.needed "input") (g.get? "program") (g.get? "config")
      ((g.get? "workers").bind size?) json
  | "match-bench" =>
    return .matchBench (((g.get? "candidates").bind size?).getD usualCandidates)
      (((g.get? "targets").bind size?).getD usualTargets)
      (((g.get? "strategy").bind strategy?).getD .auto)
  | _ => return .info

/-- Reads options; help is about the program or about a command. -/
def readForms (help : Bool → Notice) (forms : List OptionForm) (args : List String) :
    Except Notice (Given × List String) :=
  match readOptions forms none [] args with
  | .ok r => .ok r
  | .error .misuse => .error .misuse
  | .error .version => .error .version
  | .error (.help full) => .error (help full)

def helpNotice : List String → Notice
  | [] => .help true
  | ["help"] => .helpHelp
  | [name] => ((commandForm? name).map .commandHelp).getD .misuse
  | _ => .misuse

def Invocation.ofArguments (args : List String) : Except Notice Invocation := do
  let (outer, rest) ← readForms .help outerForms args
  match rest with
  | [] => .error .misuse
  | "help" :: names => .error (helpNotice names)
  | name :: args =>
    match commandForm? name with
    | none => .error .misuse
    | some form =>
      let (inner, rest) ← readForms (fun _ => .commandHelp form) form.options args
      if rest = [] ∨ rest = ["--"] then
        return ⟨outer.has "verbose" || inner.has "verbose",
          outer.has "log-json" || inner.has "log-json", ← commandOf name inner⟩
      else .error .misuse

end TaggedPayload.CommandLine
