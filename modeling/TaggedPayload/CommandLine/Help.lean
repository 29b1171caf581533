import TaggedPayload.CommandLine.Invocation
import TaggedPayload.CommandLine.Report

/-!
# Help

The text about the program and its commands. Options stand in rows: how they are written, and what
is said about them. They are ordered by their places among the options declared with them; of two
in one place, the one whose letter or name comes first; help and version come last. In full, what is
said about an option has a line of its own.
-/

set_option autoImplicit false

namespace TaggedPayload.CommandLine

namespace OptionForm

/-- The value as it stands in a row: the name of the option in capitals. -/
def placeholder (f : OptionForm) : String :=
  match f.role with
  | .value _ => " <" ++ f.name.toUpper ++ ">"
  | _ => ""

def longText (f : OptionForm) : String := "--" ++ f.name ++ f.placeholder

def text (f : OptionForm) : String :=
  (match f.letter with
    | some c => String.ofList ['-', c, ',', ' ']
    | none => "    ") ++ f.longText

/-- What is said about an option: its purpose, its usual value and the values to choose from. -/
def remarks (f : OptionForm) : String :=
  let usual := f.usual.toList.map fun v => "[default: " ++ v ++ "]"
  let choice :=
    if f.role = .value .kind then ["[possible values: event, account, instruction]"] else []
  " ".intercalate ((if f.about = "" then [] else [f.about]) ++ usual ++ choice)

/-- What two options in one place are ordered by. -/
def key (f : OptionForm) : String :=
  match f.letter with
  | some c => String.ofList [c.toLower, if c.isLower then '0' else '1']
  | none => f.name

/-- The place of an option among those declared with it, or behind all of them. -/
def place (f : OptionForm) (index : Nat) : Nat :=
  match f.role with
  | .help => 999
  | .version => 999
  | _ => index

end OptionForm

def placed (forms : List OptionForm) : List (Nat × OptionForm) :=
  forms.zipIdx.map fun (f, i) => (f.place i, f)

def inRows (forms : List (Nat × OptionForm)) : List OptionForm :=
  (forms.mergeSort fun a b => a.1 < b.1 || (a.1 == b.1 && !decide (b.2.key < a.2.key))).map (·.2)

/-- Rows of two columns, the first as wide as its widest entry. -/
def rows (entries : List (String × String)) : List String :=
  let width := (entries.map (·.1.length)).foldl max 2
  entries.map fun e => "  " ++ filled width e.1 ++ "  " ++ e.2

def optionRows (forms : List OptionForm) : List String :=
  rows (forms.map fun f => (f.text, f.remarks))

def optionBlocks : List OptionForm → List String
  | [] => []
  | [f] => ["  " ++ f.text, "          " ++ f.remarks]
  | f :: fs => ["  " ++ f.text, "          " ++ f.remarks, ""] ++ optionBlocks fs

def helpAbout : String := "Print this message or the help of the given subcommand(s)"

def usage : String := "Usage: progcodec [OPTIONS] <COMMAND>"

def shortAbout : List String := ["On-chain program payload decoder — progcodec CLI"]

def fullAbout : List String :=
  ["progcodec CLI: derive Anchor-style discriminators, inspect raw account and",
    "event buffers, and decode payloads with YAML layouts.", "", "ENVIRONMENT VARIABLES:",
    "  RUST_LOG    Overrides --verbose (e.g. progcodec_batch=debug)", ""]

def programHelp (full : Bool) : List String :=
  (if full then fullAbout else shortAbout) ++ ["", usage, "", "Commands:"] ++
    rows (commandForms.map (fun f => (f.name, f.about)) ++ [("help", helpAbout)]) ++
    ["", "Options:"] ++
    if full then
      optionBlocks (inRows (placed
        (loggingForms ++ [helpForm "Print help (see a summary with '-h')", versionForm])))
    else optionRows (inRows (placed outerForms))

def commandHelp (f : CommandForm) : List String :=
  let needed := (f.own.filter (·.needed)).map fun o => " " ++ o.longText
  [f.about, "", "Usage: progcodec " ++ f.name ++ " [OPTIONS]" ++ needed.foldl (· ++ ·) "", "",
    "Options:"] ++
    optionRows (inRows (placed f.own ++ placed (loggingForms ++ [helpForm "Print help"])))

def helpHelp : List String :=
  [helpAbout, "", "Usage: progcodec help [COMMAND]...", "", "Arguments:"] ++
    rows [("[COMMAND]...", "Print help for the subcommand(s)")]

end TaggedPayload.CommandLine
