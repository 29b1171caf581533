import Mathlib.Data.List.Forall2
import TaggedPayload.CommandLine.Commands

/-!
# Payload lines of a batch

A batch reads its payloads from the lines of a text that are neither blank nor a comment, in their
order; every one of them has to be hexadecimal. The first that is not stops the command and is
reported by its number. That number counts the payload lines only, so it is the line's number in the
text just if no blank line and no comment stands before it.
-/

set_option autoImplicit false

namespace TaggedPayload.CommandLine

/-- A line that is neither blank nor a comment. -/
def holdsPayload (line : List Char) : Bool :=
  let l := Text.trim line
  !l.isEmpty && l.head? != some '#'

def payloadOf (line : List Char) : Except Text.HexFault Bytes :=
  Text.readMarkedHex (String.ofList (Text.trim line))

/-- The line holds hexadecimal text, or no payload at all. -/
def isReadable (line : List Char) : Prop :=
  holdsPayload line = true → ∃ bs, payloadOf line = .ok bs

theorem payloadLines_eq (text : String) :
    payloadLines text = ((Text.segments '\n' text.toList).filter holdsPayload).map Text.trim := by
  rw [payloadLines, List.filter_map]
  rfl

theorem readPayload_trim (line : List Char) :
    readPayload (String.ofList (Text.trim line)) =
      (payloadOf line).mapError fun fault => ⟨"invalid hex", [fault.message]⟩ := by
  rw [readPayload, payloadOf, Text.trimmed, String.toList_ofList, Text.trim_trim]
  cases Text.readMarkedHex (String.ofList (Text.trim line)) <;> rfl

def lineFailure (number : Nat) (fault : Text.HexFault) : Failure :=
  ⟨s!"line {number}", ["invalid hex", fault.message]⟩

theorem payloadsFrom_cons_ok (n : Nat) (line : List Char) (ls : List (List Char)) (bs : Bytes)
    (h : payloadOf line = .ok bs) :
    payloadsFrom n (Text.trim line :: ls) = (payloadsFrom (n + 1) ls).map (bs :: ·) := by
  rw [payloadsFrom, readPayload_trim, h]
  rfl

theorem payloadsFrom_cons_error (n : Nat) (line : List Char) (ls : List (List Char))
    (fault : Text.HexFault) (h : payloadOf line = .error fault) :
    payloadsFrom n (Text.trim line :: ls) = .error (lineFailure n fault) := by
  rw [payloadsFrom, readPayload_trim, h]
  rfl

theorem payloadsFrom_ok (n : Nat) (ls : List (List Char)) (payloads : List Bytes)
    (h : List.Forall₂ (fun l bs => payloadOf l = .ok bs) ls payloads) :
    payloadsFrom n (ls.map Text.trim) = .ok payloads := by
  induction h generalizing n with
  | nil => rfl
  | cons hl _ ih => rw [List.map_cons, payloadsFrom_cons_ok n _ _ _ hl, ih]; rfl

theorem payloadsFrom_first (n : Nat) (before after : List (List Char)) (l : List Char)
    (fault : Text.HexFault) (hbefore : ∀ k ∈ before, ∃ bs, payloadOf k = .ok bs)
    (hl : payloadOf l = .error fault) :
    payloadsFrom n ((before ++ l :: after).map Text.trim) =
      .error (lineFailure (n + before.length) fault) := by
  induction before generalizing n with
  | nil => exact payloadsFrom_cons_error n l _ fault hl
  | cons k before ih =>
    obtain ⟨bs, hk⟩ := hbefore k List.mem_cons_self
    rw [List.cons_append, List.map_cons, payloadsFrom_cons_ok n k _ bs hk,
      ih (n + 1) fun k hk => hbefore k (List.mem_cons_of_mem _ hk), List.length_cons,
      Nat.add_right_comm, Nat.add_assoc]
    rfl

/-! ## Lines of a text -/

/-- The payloads are those of the payload lines, in order. -/
def Reads (lines : List (List Char)) (payloads : List Bytes) : Prop :=
  List.Forall₂ (fun l bs => payloadOf l = .ok bs) (lines.filter holdsPayload) payloads

/-- Behind `before`, the line is the first payload line that is not hexadecimal. -/
structure FirstFault (lines before : List (List Char)) (line : List Char)
    (fault : Text.HexFault) : Prop where
  place : ∃ after, lines = before ++ line :: after
  readable : ∀ k ∈ before, isReadable k
  held : holdsPayload line = true
  refused : payloadOf line = .error fault

theorem Reads.cons {l : List Char} {ls : List (List Char)} {payloads : List Bytes}
    (hl : isReadable l) (h : Reads ls payloads) : ∃ payloads, Reads (l :: ls) payloads := by
  by_cases hheld : holdsPayload l = true
  · obtain ⟨bs, hbs⟩ := hl hheld
    refine ⟨bs :: payloads, ?_⟩
    rw [Reads, List.filter_cons_of_pos hheld]
    exact .cons hbs h
  · refine ⟨payloads, ?_⟩
    rwa [Reads, List.filter_cons_of_neg hheld]

theorem FirstFault.cons {l : List Char} {ls before : List (List Char)} {line : List Char}
    {fault : Text.HexFault} (hl : isReadable l) (h : FirstFault ls before line fault) :
    FirstFault (l :: ls) (l :: before) line fault := by
  obtain ⟨⟨after, hls⟩, hreadable, hheld, hrefused⟩ := h
  exact ⟨⟨after, by rw [hls, List.cons_append]⟩, List.forall_mem_cons.mpr ⟨hl, hreadable⟩,
    hheld, hrefused⟩

theorem not_isReadable {l : List Char} (h : ¬isReadable l) :
    holdsPayload l = true ∧ ∃ fault, payloadOf l = .error fault := by
  obtain ⟨hheld, hbs⟩ := Classical.not_imp.mp h
  refine ⟨hheld, ?_⟩
  cases hl : payloadOf l with
  | error fault => exact ⟨fault, rfl⟩
  | ok bs => exact absurd ⟨bs, hl⟩ hbs

theorem reads_or_fault (lines : List (List Char)) :
    (∃ payloads, Reads lines payloads) ∨
      ∃ before line fault, FirstFault lines before line fault := by
  induction lines with
  | nil => exact .inl ⟨[], .nil⟩
  | cons l ls ih =>
    by_cases hl : isReadable l
    · obtain ⟨payloads, h⟩ | ⟨before, line, fault, h⟩ := ih
      · exact .inl (h.cons hl)
      · exact .inr ⟨l :: before, line, fault, h.cons hl⟩
    · obtain ⟨hheld, fault, hrefused⟩ := not_isReadable hl
      exact .inr ⟨[], l, fault, ⟨ls, rfl⟩, by simp, hheld, hrefused⟩

theorem readPayloads_ok (text : String) (payloads : List Bytes)
    (h : Reads (Text.segments '\n' text.toList) payloads) : readPayloads text = .ok payloads := by
  rw [readPayloads, payloadLines_eq]
  exact payloadsFrom_ok 1 _ payloads h

theorem readPayloads_first (text : String) (before : List (List Char)) (line : List Char)
    (fault : Text.HexFault)
    (h : FirstFault (Text.segments '\n' text.toList) before line fault) :
    readPayloads text =
      .error (lineFailure ((before.filter holdsPayload).length + 1) fault) := by
  obtain ⟨⟨after, hlines⟩, hreadable, hheld, hrefused⟩ := h
  have hbefore : ∀ k ∈ before.filter holdsPayload, ∃ bs, payloadOf k = .ok bs := by
    intro k hk
    obtain ⟨hmem, hk⟩ := List.mem_filter.mp hk
    exact hreadable k hmem hk
  rw [readPayloads, payloadLines_eq, hlines, List.filter_append, List.filter_cons_of_pos hheld,
    payloadsFrom_first 1 _ _ line fault hbefore hrefused, Nat.add_comm]

/-- Of the payload lines up to a faulty one, all lines before it are counted just if none of them is
blank or a comment. -/
theorem counted_eq_iff (before : List (List Char)) :
    (before.filter holdsPayload).length + 1 = before.length + 1 ↔
      ∀ k ∈ before, holdsPayload k = true := by
  rw [Nat.add_right_cancel_iff, List.length_filter_eq_length_iff]

/-! ## The command -/

def batchDone (json : Bool) (loaded : LogRecord) (r : BatchResult × List LogRecord) : Report :=
  ⟨0, (batchLines r.1 json).map .text, batchNotes r.1 json, loaded :: r.2⟩

theorem batchReport_payloads (files : Files) (layouts input : String)
    (program config : Option String) (workers : Option Nat) (json : Bool) (registry : Registry)
    (key : Option AccountKey) (settings : BatchConfig) (text : String)
    (hlayouts : readLayouts files layouts = .ok registry)
    (hprogram : readProgram program = .ok key)
    (hconfig : readBatchConfig files config = .ok settings) (hinput : files input = .ok text) :
    batchReport files layouts input program config workers json =
      match readPayloads text with
      | .ok payloads =>
        batchDone json (loadedRecord registry layouts) <|
          (registry.candidates key).batch
            { settings with workers := workers.getD settings.workers } payloads
      | .error f => { Report.failure f with records := [loadedRecord registry layouts] } := by
  have htext : files.read "input" input = .ok text := by
    rw [Files.read, hinput]
  simp only [batchReport, hlayouts, hprogram, hconfig, htext, bind, Except.bind]
  cases readPayloads text <;> rfl

/-- A batch whose layouts, program and settings can be read hands on the bytes of exactly the
payload lines of its text, in their order. If one of these lines is not hexadecimal, it fails and
reports the first such line under its number among the payload lines. One of the two always happens.
The number is that of the line in the text just if no line before it is blank or a comment. -/
theorem payload_lines_counted (files : Files) (layouts input : String)
    (program config : Option String) (workers : Option Nat) (json : Bool) (registry : Registry)
    (key : Option AccountKey) (settings : BatchConfig) (text : String)
    (hlayouts : readLayouts files layouts = .ok registry)
    (hprogram : readProgram program = .ok key)
    (hconfig : readBatchConfig files config = .ok settings) (hinput : files input = .ok text) :
    let lines := Text.segments '\n' text.toList
    let report := batchReport files layouts input program config workers json
    let loaded := loadedRecord registry layouts
    (∀ payloads, Reads lines payloads →
      report = batchDone json loaded ((registry.candidates key).batch
        { settings with workers := workers.getD settings.workers } payloads)) ∧
    (∀ before line fault, FirstFault lines before line fault →
      let counted := (before.filter holdsPayload).length + 1
      report = { Report.failure (lineFailure counted fault) with records := [loaded] } ∧
        (counted = before.length + 1 ↔ ∀ k ∈ before, holdsPayload k = true)) ∧
    ((∃ payloads, Reads lines payloads) ∨
      ∃ before line fault, FirstFault lines before line fault) := by
  have hreport := batchReport_payloads files layouts input program config workers json registry key
    settings text hlayouts hprogram hconfig hinput
  refine ⟨fun payloads h => ?_, fun before line fault h => ⟨?_, counted_eq_iff before⟩,
    reads_or_fault _⟩
  · rw [hreport, readPayloads_ok text payloads h]
  · rw [hreport, readPayloads_first text before line fault h]

/-- A comment and a blank line stand before the faulty line, which is the fourth of the text and the
second of its payload lines. -/
theorem payload_lines_counted_behind_comment :
    let text := "# swaps\n0x01\n\n abc\n"
    let files : Files := fun name =>
      if name = "l.yaml" then .ok "layout A: \x7bfields: \x7ba: u8\x7d\x7d\n" else .ok text
    let before := ["# swaps".toList, "0x01".toList, []]
    ∃ registry, readLayouts files "l.yaml" = .ok registry ∧ readProgram none = .ok none ∧
      readBatchConfig files none = .ok (BatchConfig.usual.collecting 0) ∧
      files "p.txt" = .ok text ∧
      FirstFault (Text.segments '\n' text.toList) before " abc".toList .oddLength ∧
      batchReport files "l.yaml" "p.txt" none none none false =
        { Report.failure (lineFailure 2 .oddLength) with
          records := [loadedRecord registry "l.yaml"] } := by
  intro text files before
  have hloads : (readLayouts files "l.yaml").isOk = true := by decide +kernel
  obtain ⟨registry, hlayouts⟩ : ∃ registry, readLayouts files "l.yaml" = .ok registry := by
    cases hread : readLayouts files "l.yaml" with
    | error f =>
      rw [hread] at hloads
      cases hloads
    | ok registry => exact ⟨registry, rfl⟩
  have hcomment : ¬holdsPayload "# swaps".toList = true := by decide +kernel
  have hpayload : payloadOf "0x01".toList = .ok [1] := by decide +kernel
  have hfault : FirstFault (Text.segments '\n' text.toList) before " abc".toList .oddLength := by
    refine ⟨⟨[[]], by decide +kernel⟩, ?_, by decide +kernel, by decide +kernel⟩
    intro k hk hheld
    simp only [before, List.mem_cons, List.not_mem_nil, or_false] at hk
    obtain rfl | rfl | rfl := hk
    · exact absurd hheld hcomment
    · exact ⟨[1], hpayload⟩
    · cases hheld
  obtain ⟨-, hfirst, -⟩ := payload_lines_counted files "l.yaml" "p.txt" none none none false
    registry none _ text hlayouts rfl rfl rfl
  exact ⟨registry, hlayouts, rfl, rfl, rfl, hfault, (hfirst before _ _ hfault).1⟩

/-- The command reports the second payload line where the fourth line of the text is at fault. -/
theorem number_skips_comments :
    let text := "# swaps\n0x01\n\n abc\n"
    let files : Files := fun name =>
      if name = "l.yaml" then .ok "layout A: \x7bfields: \x7ba: u8\x7d\x7d\n" else .ok text
    let lines := Text.segments '\n' text.toList
    let report := answer files ["batch", "--layouts", "l.yaml", "--input", "p.txt"]
    lines[3]? = some " abc".toList ∧
      lines.findIdx? (fun l => holdsPayload l && !(payloadOf l).isOk) = some 3 ∧
      report.exitCode = 1 ∧ report.err.map (Line.render 0) =
        ["Error: line 2\n\nCaused by:\n    0: invalid hex\n    1: Odd number of digits"] := by
  decide +kernel

end TaggedPayload.CommandLine
