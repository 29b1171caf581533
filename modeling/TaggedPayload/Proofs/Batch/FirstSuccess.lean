import TaggedPayload.Proofs.Registry.Outcomes
import TaggedPayload.Proofs.Registry.SearchOrder

/-!
# The first decoder that succeeds

Best-effort dispatch passes over decoders that refuse a payload and over those that accept it and
fail. What it finds is what a search in three phases finds: the program's decoders, all registered
ones, the fallback. A decoder that is asked once instead of twice succeeds at its first turn or not
at all, so nothing is lost. If none succeeds, the last error counts, and that one depends on which
turns were left out; it is the error of the last candidate that accepts the payload.
-/

set_option autoImplicit false

namespace TaggedPayload

def Handle.reads (data : Bytes) (h : Handle) : Bool :=
  h.decoder.accepts data && (h.decoder.decode data).isOk

namespace Candidates

theorem decodeItem_reads (c : Candidates) (data : Bytes) (e : Event) (hl : 8 ≤ data.length) :
    c.decodeItem data = .ok e ↔
      ∃ h, c.all.find? (Handle.reads data) = some h ∧ h.decoder.decode data = .ok e := by
  rw [decodeItem_ok_iff]
  constructor
  · rintro ⟨h, ⟨-, hfind⟩, he⟩
    exact ⟨h, hfind, he⟩
  · rintro ⟨h, hfind, he⟩
    exact ⟨h, ⟨hl, hfind⟩, he⟩

/-- The error of the last candidate that accepts, where no candidate succeeds. -/
theorem decodeItem_failed (c : Candidates) (data : Bytes) (hl : 8 ≤ data.length)
    (hnone : c.all.find? (Handle.reads data) = none) :
    c.decodeItem data =
      ((c.all.reverse.find? fun h => h.decoder.accepts data).map
        fun h => h.decoder.decode data).getD (.error (.noneAccepts "registry")) := by
  have hfailed : (outcomes data c.all).find? (·.isOk) = none := by
    rw [find?_outcomes]
    exact Option.map_eq_none_iff.mpr hnone
  rw [decodeItem_outcomes c data hl, bestEffort_failed none _ hfailed, getLast?_outcomes]
  rfl

theorem decodeItem_error_iff (c : Candidates) (data : Bytes) (fault : DecodeError)
    (hl : 8 ≤ data.length) :
    c.decodeItem data = .error fault ↔
      c.all.find? (Handle.reads data) = none ∧
        ((c.all.reverse.find? fun h => h.decoder.accepts data).map
          fun h => h.decoder.decode data).getD (.error (.noneAccepts "registry")) =
            .error fault := by
  cases hfind : c.all.find? (Handle.reads data) with
  | none => simp [decodeItem_failed c data hl hfind]
  | some h =>
    have hread := List.find?_some hfind
    rw [Handle.reads, Bool.and_eq_true] at hread
    cases hd : h.decoder.decode data with
    | error f =>
      rw [hd] at hread
      cases hread.2
    | ok e => simp [(c.decodeItem_reads data e hl).mpr ⟨h, hfind, hd⟩]

end Candidates

/-- A payload without a tag is refused, whoever accepts it. For any other payload there is an event
just if the search in three phases meets a decoder that accepts and reads it, and the event is that
of the first such decoder. Otherwise there is the error of the last candidate that accepts the
payload, or, if there is none, that of the registry. -/
theorem first_success_in_phases (own : Nat → Decoder) (cs : List RegistryCommand)
    (hcs : RegistryLog.Faithful own .empty cs) (data : Bytes) (program : Option AccountKey) :
    let c := (RegistryCommand.run .empty cs).candidates program
    let phases := (RegistryLog.ofHistory cs).phases program
    (data.length < 8 → c.decodeItem data = .error (.tooShort 8 data.length)) ∧
      (8 ≤ data.length →
        (∀ e, c.decodeItem data = .ok e ↔
          ∃ h, phases.flatten.find? (Handle.reads data) = some h ∧
            h.decoder.decode data = .ok e) ∧
        ∀ fault, c.decodeItem data = .error fault ↔
          phases.flatten.find? (Handle.reads data) = none ∧
            ((c.all.reverse.find? fun h => h.decoder.accepts data).map
              fun h => h.decoder.decode data).getD (.error (.noneAccepts "registry")) =
                .error fault) := by
  intro c phases
  have hfind : phases.flatten.find? (Handle.reads data) = c.all.find? (Handle.reads data) := by
    have hsound := RegistryLog.run_sound own cs hcs
    have hphases := Registry.find?_phases _ hsound (Handle.reads data) program
    rw [hphases, RegistryLog.phases_flatten, ← (RegistryLog.run_ofHistory cs).1]
  rw [hfind]
  refine ⟨c.decodeItem_short data, fun hl => ⟨?_, ?_⟩⟩
  · intro e
    exact c.decodeItem_reads data e hl
  · intro fault
    exact c.decodeItem_error_iff data fault hl

/-- A decoder that cannot read its payloads stands in two buckets and under two keys. What follows it
reads nine bytes; eight bytes are left to the fallback, which fails in its turn. -/
theorem first_success_in_phases_poisoned :
    let p : AccountKey := ⟨List.replicate 32 7, rfl⟩
    let q : AccountKey := ⟨List.replicate 32 9, rfl⟩
    let tag : Tag := ⟨List.replicate 8 1, rfl⟩
    let swap : Decoder := .tagged ⟨"Swap", p, tag, fun _ => .error "corrupt"⟩
    let raw : Decoder := .gated ⟨"Raw", .zero, 9, fun bs => .ok (.bytes bs)⟩
    let last : Decoder := .tagged ⟨"Last", .zero, tag, fun _ => .error "broken"⟩
    let own : Nat → Decoder := fun n => if n = 0 then swap else if n = 1 then raw else last
    let cs : List RegistryCommand :=
      [.register "swap" ⟨.shared 0, swap⟩, .registerForProgram q ⟨.shared 0, swap⟩,
        .register "raw" ⟨.shared 1, raw⟩, .setFallback ⟨.shared 2, last⟩]
    let c := (RegistryCommand.run .empty cs).candidates (some q)
    let phases := (RegistryLog.ofHistory cs).phases (some q)
    let long := tag.bytes ++ [5]
    let event : Event := ⟨"Raw", .bytes long, long, .zero, none⟩
    RegistryLog.Faithful own .empty cs ∧
      (8 ≤ long.length ∧ c.decodeItem long = .ok event ∧
        ∃ h, phases.flatten.find? (Handle.reads long) = some h ∧
          h.decoder.decode long = .ok event) ∧
      (c.decodeItem tag.bytes = .error (.failure "Last" "broken") ∧
        phases.flatten.find? (Handle.reads tag.bytes) = none) ∧
      c.decodeItem (List.replicate 8 2) = .error (.noneAccepts "registry") ∧
      c.decodeItem [1] = .error (.tooShort 8 1) := by
  intro p q tag swap raw last own cs c phases long event
  have hcs : RegistryLog.Faithful own .empty cs := by
    refine ⟨?_, ?_, ?_, ?_, trivial⟩ <;> intro h hh <;> rw [List.mem_singleton.mp hh] <;> rfl
  have hevent : c.decodeItem long = .ok event := by decide +kernel
  have hfault : c.decodeItem tag.bytes = .error (.failure "Last" "broken") := by decide +kernel
  have hread := ((first_success_in_phases own cs hcs long (some q)).2 (by decide)).1
  have hfailed := ((first_success_in_phases own cs hcs tag.bytes (some q)).2 (by decide)).2
  have hshort := (first_success_in_phases own cs hcs [1] (some q)).1 (by decide)
  exact ⟨hcs, ⟨by decide, hevent, (hread event).mp hevent⟩, ⟨hfault, ((hfailed _).mp hfault).1⟩,
    by decide +kernel, hshort⟩

end TaggedPayload
