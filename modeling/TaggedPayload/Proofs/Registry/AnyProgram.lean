import TaggedPayload.Proofs.Batch.AnyOrder
import TaggedPayload.Proofs.Registry.Outcomes
import TaggedPayload.Proofs.Registry.SearchOrder

/-!
# The key of any program

The zero key stands for any program, so dispatch with it should be dispatch without a program. That
holds in every registry in which no registration named the zero key as its program. One such
registration can be there, since it takes the key's text; its decoder is then asked first where the
zero key is given, and dispatch differs just for the payloads that it accepts.
-/

set_option autoImplicit false

namespace TaggedPayload

namespace Registration

/-- Decoders for any program join no program by their own account. -/
theorem owner?_zero (g : Registration) : g.owner? = some .zero ↔ g.named = some .zero := by
  rw [owner?]
  cases g.named with
  | some p => rfl
  | none =>
    by_cases hp : g.handle.program = .zero
    · simp [hp]
    · simp [hp]

/-- A registration that names a program has the program's text for its key. -/
def Keyed (g : Registration) : Prop :=
  ∀ p, g.named = some p → g.key = p.text

end Registration

namespace RegistryLog

/-! ## Named programs -/

theorem addition_keyed (log new : RegistryLog) (c : RegistryCommand)
    (hnew : log.addition c = .ok new) : ∀ g ∈ new.accepted, g.Keyed := by
  intro g hg p hp
  cases addition_brings log new c hnew g hg with
  | registerForProgram =>
    cases hp
    rfl
  | register => cases hp
  | registerAll => cases hp
  | loadLayouts => cases hp

theorem after_keyed (log : RegistryLog) (c : RegistryCommand)
    (h : ∀ g ∈ log.accepted, g.Keyed) : ∀ g ∈ (log.after c).accepted, g.Keyed := by
  rcases after_cases log c with hsame | ⟨new, hnew, hadded⟩
  · rwa [hsame]
  · rw [hadded]
    intro g hg
    rcases List.mem_append.mp hg with hold | hnewer
    · exact h g hold
    · exact addition_keyed log new c hnew g hnewer

theorem history_keyed (log : RegistryLog) (cs : List RegistryCommand)
    (h : ∀ g ∈ log.accepted, g.Keyed) : ∀ g ∈ (cs.foldl after log).accepted, g.Keyed := by
  induction cs generalizing log with
  | nil => exact h
  | cons c cs ih => exact ih (log.after c) (after_keyed log c h)

def naming (log : RegistryLog) (p : AccountKey) : List Registration :=
  log.accepted.filter fun g => g.named = some p

/-- A program is named once at most. -/
theorem naming_once (log : RegistryLog) (hkeys : log.keys.Nodup)
    (hkeyed : ∀ g ∈ log.accepted, g.Keyed) (p : AccountKey) : (log.naming p).length ≤ 1 := by
  have hnodup : ((log.naming p).map (·.key)).Nodup :=
    List.Nodup.sublist (List.filter_sublist.map _) hkeys
  have hsame : ∀ g ∈ log.naming p, g.key = p.text := by
    intro g hg
    obtain ⟨hmem, hp⟩ := List.mem_filter.mp hg
    exact hkeyed g hmem p (of_decide_eq_true hp)
  match hn : log.naming p with
  | [] => exact Nat.zero_le 1
  | [g] => exact Nat.le_refl 1
  | g :: k :: gs =>
    rw [hn] at hnodup hsame
    have hk : k ∈ g :: k :: gs := List.mem_cons_of_mem g List.mem_cons_self
    have hkey : g.key = k.key := (hsame g List.mem_cons_self).trans (hsame k hk).symm
    simp [hkey] at hnodup

theorem registry_bucket_zero (log : RegistryLog) :
    log.registry.bucket .zero = (log.naming .zero).map (·.handle) := by
  rw [registry_bucket, naming]
  congr 1
  apply List.filter_congr
  intro g _
  rw [decide_eq_decide]
  exact g.owner?_zero

end RegistryLog

/-! ## Dispatch -/

namespace Registry

theorem candidates_empty_bucket (r : Registry) (p : AccountKey) (h : r.bucket p = []) :
    r.candidates (some p) = r.candidates none := by
  simp [candidates, h]

/-- Decoders of a program that refuse a payload do not show in its dispatch. -/
theorem outcomes_refused (r : Registry) (hr : r.Sound) (data : Bytes) (program : Option AccountKey)
    (hrefused : ∀ g ∈ (program.map r.bucket).getD [], ¬g.decoder.accepts data = true) :
    outcomes data (r.candidates program).all = outcomes data (r.candidates none).all := by
  have hkept := filter_dropped r hr (fun h => h.decoder.accepts data) program hrefused
  have hall : (r.candidates none).all = r.decoders ++ r.fallback.toList := by
    simp [candidates, Candidates.all]
  rw [hall, Candidates.all, candidates]
  generalize (program.map r.bucket).getD [] = first at *
  simp only [outcomes_append]
  rw [(outcomes_eq_nil_iff data first).mpr hrefused, List.nil_append, outcomes, hkept]
  rfl

end Registry

namespace Candidates

theorem same_outcomes (c d : Candidates) (data : Bytes)
    (h : outcomes data c.all = outcomes data d.all) :
    c.decode data = d.decode data ∧ c.decodeItem data = d.decodeItem data := by
  refine ⟨by rw [decode_outcomes, decode_outcomes, h], ?_⟩
  by_cases hl : 8 ≤ data.length
  · rw [decodeItem_outcomes c data hl, decodeItem_outcomes d data hl, h]
  · have hshort := Nat.lt_of_not_le hl
    rw [decodeItem_short c data hshort, decodeItem_short d data hshort]

end Candidates

/-- A program's only decoder decides the payloads that it accepts, and does not show in the others. -/
theorem Registry.decode_lone (r : Registry) (hr : r.Sound) (p : AccountKey) (h : Handle)
    (hb : r.bucket p = [h]) (data : Bytes) :
    (h.decoder.accepts data = true → r.decode data (some p) = h.decoder.decode data) ∧
    (¬h.decoder.accepts data = true →
      r.decode data (some p) = r.decode data none ∧
        (r.candidates (some p)).decodeItem data = (r.candidates none).decodeItem data) := by
  constructor
  · intro hacc
    simp [Registry.decode, Candidates.decode, Candidates.resolve, Candidates.all, candidates, hb,
      hacc]
  · intro hrefused
    apply Candidates.same_outcomes
    apply outcomes_refused r hr data (some p)
    intro k hk
    change k ∈ r.bucket p at hk
    rw [hb] at hk
    rw [List.mem_singleton.mp hk]
    exact hrefused

/-- Without a registration that named the zero key, it has no decoders, and dispatch with it is
dispatch without a program, alone and in a batch. Otherwise it has one decoder, which has the outcome
of the payloads that it accepts and does not show in that of any other. -/
theorem zero_key_dispatch (cs : List RegistryCommand) :
    let r := RegistryCommand.run .empty cs
    let named := (RegistryLog.ofHistory cs).naming .zero
    r.bucket .zero = named.map (·.handle) ∧ named.length ≤ 1 ∧
    (named = [] →
      (∀ data, r.decode data (some .zero) = r.decode data none) ∧
      (∀ payloads, r.decodeAll payloads (some .zero) = r.decodeAll payloads none) ∧
      ∀ payloads config,
        (r.candidates (some .zero)).batch config payloads =
          (r.candidates none).batch config payloads) ∧
    ∀ own, RegistryLog.Faithful own .empty cs → ∀ g ∈ named, ∀ data,
      (g.handle.decoder.accepts data = true →
        r.decode data (some .zero) = g.handle.decoder.decode data) ∧
      (¬g.handle.decoder.accepts data = true →
        r.decode data (some .zero) = r.decode data none ∧
          (r.candidates (some .zero)).decodeItem data = (r.candidates none).decodeItem data) := by
  intro r named
  obtain ⟨hr, hnodup⟩ : r = (RegistryLog.ofHistory cs).registry ∧
      (RegistryLog.ofHistory cs).keys.Nodup := RegistryLog.run_ofHistory cs
  have hkeyed := RegistryLog.history_keyed .empty cs fun g hg => absurd hg List.not_mem_nil
  have honce : named.length ≤ 1 := RegistryLog.naming_once _ hnodup hkeyed .zero
  have hbucket : r.bucket .zero = named.map (·.handle) := by
    rw [hr]
    exact RegistryLog.registry_bucket_zero _
  refine ⟨hbucket, honce, ?_, ?_⟩
  · intro hnone
    have hsame : r.candidates (some .zero) = r.candidates none := by
      apply Registry.candidates_empty_bucket
      rw [hbucket, hnone]
      rfl
    simp only [Registry.decode, Registry.decodeAll, hsame, implies_true, and_self]
  · intro own hcs g hg data
    have hone : r.bucket .zero = [g.handle] := by
      rw [hbucket]
      match named, hg, honce with
      | [k], hg, _ => rw [List.mem_singleton.mp hg]; rfl
    exact Registry.decode_lone r (RegistryLog.run_sound own cs hcs) .zero g.handle hone data

/-- A decoder for any program and one with a program of its own leave the zero key without decoders.
A third one that is registered for the zero key, and is the fallback, too, reads long payloads. -/
theorem zero_key_dispatch_long :
    let p : AccountKey := ⟨List.replicate 32 7, rfl⟩
    let short : Decoder := .gated ⟨"Short", .zero, 0, fun _ => .ok .null⟩
    let owned : Decoder := .gated ⟨"Owned", p, 0, fun _ => .ok .null⟩
    let long : Decoder := .gated ⟨"Long", p, 9, fun bs => .ok (.bytes bs)⟩
    let own : Nat → Decoder := fun n => if n = 0 then short else if n = 1 then owned else long
    let cs : List RegistryCommand :=
      [.register "short" ⟨.shared 0, short⟩, .registerAll [("owned", ⟨.shared 1, owned⟩)]]
    let cs' : List RegistryCommand :=
      cs ++ [.registerForProgram .zero ⟨.shared 2, long⟩, .setFallback ⟨.shared 2, long⟩]
    let r := RegistryCommand.run .empty cs
    let s := RegistryCommand.run .empty cs'
    let data : Bytes := List.replicate 9 3
    ((RegistryLog.ofHistory cs).naming .zero = [] ∧
      r.decode data (some .zero) = r.decode data none) ∧
    RegistryLog.Faithful own .empty cs' ∧
    ∃ g ∈ (RegistryLog.ofHistory cs').naming .zero,
      (g.handle.decoder.accepts data = true ∧
        s.decode data (some .zero) = g.handle.decoder.decode data) ∧
      ¬g.handle.decoder.accepts [5] = true ∧ s.decode [5] (some .zero) = s.decode [5] none := by
  intro p short owned long own cs cs' r s data
  have hnone : (RegistryLog.ofHistory cs).naming .zero = [] :=
    List.length_eq_zero_iff.mp (by decide +kernel)
  have hfaithful : RegistryLog.Faithful own .empty cs' := by
    refine ⟨?_, ?_, ?_, ?_, trivial⟩ <;> intro h hh <;> rw [List.mem_singleton.mp hh] <;> rfl
  have hids : ((RegistryLog.ofHistory cs').naming .zero).map (·.handle.id) = [.shared 2] := by
    decide +kernel
  obtain ⟨g, hone, hid⟩ := List.map_eq_singleton_iff.mp hids
  have hg : g ∈ (RegistryLog.ofHistory cs').naming .zero := by
    rw [hone]
    exact List.mem_cons_self
  have hlong : g.handle.decoder = long := by
    have hgenuine := RegistryLog.history_genuine own .empty cs' hfaithful
      (fun g hg => absurd hg List.not_mem_nil) g (List.mem_filter.mp hg).1
    rw [hid] at hgenuine
    exact (Option.some.inj hgenuine).symm
  obtain ⟨-, -, hapart, -⟩ := zero_key_dispatch cs
  obtain ⟨-, -, -, hnamed⟩ := zero_key_dispatch cs'
  obtain ⟨haccepted, -⟩ := hnamed own hfaithful g hg data
  obtain ⟨-, hrefused⟩ := hnamed own hfaithful g hg [5]
  have hreads : g.handle.decoder.accepts data = true := by rw [hlong]; decide
  have hleaves : ¬g.handle.decoder.accepts [5] = true := by rw [hlong]; decide
  exact ⟨⟨hnone, (hapart hnone).1 data⟩, hfaithful, g, hg, ⟨hreads, haccepted hreads⟩, hleaves,
    (hrefused hleaves).1⟩

/-- A decoder that is registered for the zero key belongs to it and is asked before an earlier one
just where the zero key is given, so the zero key does not stand for any program here. -/
theorem zero_key_preferred :
    let early : Handle := ⟨.shared 0, .gated ⟨"Early", .zero, 0, fun _ => .ok .null⟩⟩
    let late : Handle := ⟨.shared 1, .gated ⟨"Late", .zero, 0, fun _ => .ok .null⟩⟩
    let r := RegistryCommand.run .empty [.register "early" early, .registerForProgram .zero late]
    let data : Bytes := List.replicate 9 1
    let event (name : String) : Event := ⟨name, .null, data, .zero, none⟩
    r.Reachable ∧ (r.bucket .zero).map (·.id) = [.shared 1] ∧ r.bucket .zero ≠ [] ∧
      r.decode data none = .ok (event "Early") ∧ r.decode data (some .zero) = .ok (event "Late") ∧
      r.decodeAll [data] none = [event "Early"] ∧
      r.decodeAll [data] (some .zero) = [event "Late"] ∧
      ((r.candidates none).batch .usual [data]).1.events = [event "Early"] ∧
      ((r.candidates (some .zero)).batch .usual [data]).1.events = [event "Late"] := by
  intro early late r data event
  have hbucket : (r.bucket .zero).map (·.id) = [.shared 1] := by decide +kernel
  refine ⟨⟨_, rfl⟩, hbucket, ?_, ?_⟩
  · intro hnone
    rw [hnone] at hbucket
    cases hbucket
  · decide +kernel

end TaggedPayload
