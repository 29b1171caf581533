import TaggedPayload.CommandLine.Report

/-!
# Transcripts

How a demonstration is laid out: a title over a double rule, headings drawn into a rule behind an
empty line, and rows of a label and a text, the labels filled up to one width.
-/

set_option autoImplicit false

namespace TaggedPayload.Demo

def title (s : String) : List String :=
  ["progcodec — " ++ s, String.ofList (List.replicate 55 '═')]

def heading (s : String) : List String :=
  let lead := "─── " ++ s ++ " "
  ["", lead ++ String.ofList (List.replicate (53 - lead.length) '─')]

def row (width : Nat) (label text : String) : String :=
  "  " ++ CommandLine.filled width label ++ " " ++ text

end TaggedPayload.Demo
