import TaggedPayload.Proofs.Batch.Accounting
import TaggedPayload.Proofs.Batch.AnyOrder
import TaggedPayload.Proofs.Decoder.Leaves
import TaggedPayload.Proofs.Registry.AcceptedLog
import TaggedPayload.Proofs.Registry.Outcomes
import TaggedPayload.Proofs.Registry.SoleDecoder

/-!
# Where events come from

Every event of a dispatch comes from a payload of its own, holds that payload and is marked by a leaf
of one of the candidates; the events stand in the order of their payloads. So the payload in an event
is all that is needed to decode it once more. Decoders with functions of callers are left out: such a
function may put anything into an event.
-/

set_option autoImplicit false

namespace TaggedPayload

inductive EntryPoint
  | strict
  | fast
  | parallel (workers : Nat)

def EntryPoint.item (c : Candidates) : EntryPoint → Bytes → Except DecodeError Event
  | strict => c.decode
  | fast => c.decodeItem
  | parallel _ => c.decodeItem

namespace Candidates

/-- The events that a way of decoding may return for payloads. -/
inductive Returns (c : Candidates) (payloads : List Bytes) : EntryPoint → List Event → Prop
  | strict : Returns c payloads .strict (c.decodeAll payloads)
  | fast : Returns c payloads .fast (c.sequentialBatch payloads ⟨false, 0⟩).1.events
  | parallel {workers : Nat} {result : BatchResult} (h : c.FannedOut payloads workers false result) :
      Returns c payloads (.parallel workers) result.events

theorem returns_iff (c : Candidates) (entry : EntryPoint) (payloads : List Bytes)
    (events : List Event) :
    c.Returns payloads entry events ↔ events = successes (entry.item c) payloads := by
  have hfast : (c.sequentialBatch payloads ⟨false, 0⟩).1.events =
      successes c.decodeItem payloads := c.sequentialBatch_events payloads false
  constructor
  · rintro (_ | _ | h)
    · rfl
    · exact hfast
    · rw [(c.fannedOut_iff payloads _ false _).mp h]
      exact hfast
  · rintro rfl
    cases entry with
    | strict => exact .strict
    | fast =>
      rw [EntryPoint.item, ← hfast]
      exact .fast
    | parallel workers =>
      rw [EntryPoint.item, ← hfast]
      exact .parallel ((c.fannedOut_iff payloads workers false _).mpr rfl)

/-- The event is marked by a leaf of a candidate that accepts the payload. -/
def Source (c : Candidates) (data : Bytes) (e : Event) : Prop :=
  ∃ h ∈ c.all, h.decoder.accepts data = true ∧ ∃ leaf ∈ h.decoder.leaves, leaf.Marks data e

theorem source_of_item (c : Candidates) (hc : ∀ h ∈ c.all, h.decoder.Functionless)
    (entry : EntryPoint) (data : Bytes) (e : Event) (he : entry.item c data = .ok e) :
    c.Source data e := by
  have hsource : ∀ h ∈ c.all, h.decoder.accepts data = true → h.decoder.decode data = .ok e →
      c.Source data e := fun h hh hacc hd =>
    ⟨h, hh, hacc, Decoder.marks_of_decode data e h.decoder (hc h hh) hd⟩
  have hbatch : c.decodeItem data = .ok e → c.Source data e := by
    intro he
    obtain ⟨h, ⟨-, hfind⟩, hd⟩ := (c.decodeItem_ok_iff data e).mp he
    have hboth := List.find?_some hfind
    rw [Bool.and_eq_true] at hboth
    exact hsource h (List.mem_of_find?_eq_some hfind) hboth.1 hd
  cases entry with
  | strict =>
    have hdecode : c.decode data = .ok e := he
    rw [decode, resolve] at hdecode
    split at hdecode
    · next h hfind =>
      have hacc := List.find?_some hfind
      exact hsource h (List.mem_of_find?_eq_some hfind) hacc hdecode
    · cases hdecode
  | fast => exact hbatch he
  | parallel workers => exact hbatch he

theorem Source.raw {c : Candidates} {data : Bytes} {e : Event} (h : c.Source data e) :
    e.raw = data := by
  obtain ⟨-, -, -, leaf, -, hmarks⟩ := h
  exact hmarks.raw

end Candidates

theorem Registry.Reachable.owned {r : Registry} (hr : r.Reachable) :
    ∀ e ∈ r.owned, e.2 ∈ r.decoders := by
  obtain ⟨cs, rfl⟩ := hr
  rw [(RegistryLog.run_ofHistory cs).1]
  exact RegistryLog.registry_owned _

/-- In every registry without functions of callers, an event comes from a payload at a place of its
own, in the order of the payloads; it holds that payload, is marked by a leaf that accepts it, and
comes back when its payload is decoded again in the same way. -/
theorem event_provenance (r : Registry) (hr : r.Reachable)
    (hr_leaves : ∀ h ∈ r.decoders ++ r.fallback.toList, h.decoder.Functionless)
    (program : Option AccountKey) :
    let c := r.candidates program
    (∀ data e, r.decode data program = .ok e →
      e.raw = data ∧ c.Source data e ∧ r.decode e.raw program = .ok e) ∧
    ∀ entry payloads, ∃ placed : List (Nat × Event),
      (∀ events, c.Returns payloads entry events ↔ events = placed.map (·.2)) ∧
      (placed.map (·.1)).Pairwise (· < ·) ∧
      ∀ i e, (i, e) ∈ placed →
        payloads[i]? = some e.raw ∧ c.Source e.raw e ∧
          ∀ again, c.Returns [e.raw] entry again ↔ again = [e] := by
  intro c
  have hc : ∀ h ∈ c.all, h.decoder.Functionless := fun h hh =>
    hr_leaves h (r.mem_candidates hr.owned program h hh)
  constructor
  · intro data e he
    have hsource : c.Source data e := c.source_of_item hc .strict data e he
    refine ⟨hsource.raw, hsource, ?_⟩
    rw [hsource.raw]
    exact he
  · intro entry payloads
    refine ⟨placedFrom 0 (fun data => (entry.item c data).toOption) payloads, ?_,
      placedFrom_increasing 0 _ payloads, ?_⟩
    · intro events
      rw [c.returns_iff, placedFrom_results, successes]
    · intro i e hplaced
      obtain ⟨data, hdata, hopt⟩ := (mem_placed _ payloads (i, e)).mp hplaced
      have he : entry.item c data = .ok e := by
        cases hd : entry.item c data with
        | ok x =>
          rw [hd] at hopt
          exact congrArg Except.ok (Option.some.inj hopt)
        | error fault =>
          rw [hd] at hopt
          cases hopt
      have hsource := c.source_of_item hc entry data e he
      rw [hsource.raw]
      refine ⟨hdata, hsource, fun again => ?_⟩
      rw [c.returns_iff, successes_ok _ data [] e he]
      rfl

/-- A tagged decoder two composites deep and a length gate beside it; the second of three payloads
is refused. -/
theorem event_provenance_nested :
    let p : AccountKey := ⟨List.replicate 32 7, rfl⟩
    let tag : Tag := ⟨List.replicate 8 1, rfl⟩
    let swap : Decoder := .tagged ⟨"Swap", p, tag, fun bs => .ok (.bytes bs)⟩
    let raw : Decoder := .gated ⟨"Raw", .zero, 9, fun _ => .ok .null⟩
    let all : Handle := ⟨.shared 0, .composite "All" .zero [.composite "Swaps" p [swap], raw]⟩
    let r := RegistryCommand.run .empty [.register "all" all]
    let c := r.candidates none
    let swapped : Event := ⟨"Swap", .bytes [5], tag.bytes ++ [5], p, some tag⟩
    let gated : Event := ⟨"Raw", .null, List.replicate 9 2, .zero, none⟩
    r.Reachable ∧ (∀ h ∈ r.decoders ++ r.fallback.toList, h.decoder.Functionless) ∧
      (r.decode swapped.raw none = .ok swapped ∧ c.Source swapped.raw swapped) ∧
      c.Returns [swapped.raw, List.replicate 8 3, gated.raw] (.parallel 2) [swapped, gated] ∧
      ∀ e ∈ [swapped, gated], c.Source e.raw e ∧ c.Returns [e.raw] (.parallel 2) [e] := by
  intro p tag swap raw all r c swapped gated
  have hreachable : r.Reachable := ⟨_, rfl⟩
  have hleaves : ∀ h ∈ r.decoders ++ r.fallback.toList, h.decoder.Functionless := by
    intro h hh f hf
    rw [List.mem_singleton.mp hh] at hf
    simp [all, swap, raw, Decoder.leaves, Decoder.leavesOf] at hf
  obtain ⟨hstrict, hlists⟩ := event_provenance r hreachable hleaves none
  have hdecode : r.decode swapped.raw none = .ok swapped := by decide +kernel
  have hreturns : c.Returns [swapped.raw, List.replicate 8 3, gated.raw] (.parallel 2)
      [swapped, gated] := by
    rw [c.returns_iff]
    decide +kernel
  obtain ⟨placed, hplaced, -, hsource⟩ :=
    hlists (.parallel 2) [swapped.raw, List.replicate 8 3, gated.raw]
  refine ⟨hreachable, hleaves, ⟨hdecode, (hstrict _ _ hdecode).2.1⟩, hreturns, fun e he => ?_⟩
  rw [(hplaced _).mp hreturns] at he
  obtain ⟨⟨i, e⟩, hi, rfl⟩ := List.mem_map.mp he
  obtain ⟨-, hmarked, hagain⟩ := hsource i e hi
  exact ⟨hmarked, (hagain [e]).mpr rfl⟩

end TaggedPayload
