import Std.Data.HashMap
import TaggedPayload.Decoder.Basic
import TaggedPayload.LogRecord

/-!
# Decoders by tag

A table from tags to tagged decoders. Of several decoders with one tag the last one listed is kept,
and each one it takes the place of is reported.
-/

set_option autoImplicit false

namespace TaggedPayload

structure ExactMatcher where
  table : Std.HashMap Tag TaggedDecoder

namespace ExactMatcher

def empty : ExactMatcher := ⟨∅⟩

def matchOne (m : ExactMatcher) (t : Tag) : Option TaggedDecoder :=
  m.table[t]?

/-- Adds a decoder in the place of one with its tag. -/
def insert (m : ExactMatcher) (d : TaggedDecoder) : ExactMatcher :=
  ⟨m.table.insert d.tag d⟩

def ofList (ds : List TaggedDecoder) : ExactMatcher :=
  ds.foldl insert empty

/-- The reports on decoders that give way to later ones. -/
def records (m : ExactMatcher) : List TaggedDecoder → List LogRecord
  | [] => []
  | d :: ds =>
    (m.matchOne d.tag).toList.map (fun replaced =>
      { level := .debug
        target := "progcodec_matcher::exact"
        message := "duplicate discriminator, keeping the later decoder"
        fields := [("discriminator", d.tag.text), ("replaced", replaced.name)] }) ++
      records (m.insert d) ds

def size (m : ExactMatcher) : Nat := m.table.size

def matchBatch (m : ExactMatcher) (ts : List Tag) : List (Option TaggedDecoder) :=
  ts.map m.matchOne

def decode (m : ExactMatcher) (data : Bytes) : Except DecodeError Event :=
  match TaggedBuffer.ofBytes data with
  | .error e => .error e
  | .ok b =>
    match m.matchOne b.tag with
    | some d => d.decodeBuffer b
    | none => .error (.noneAccepts "ExactMatcher")

end ExactMatcher

end TaggedPayload
