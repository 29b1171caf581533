import TaggedPayload.Proofs.Registry.Outcomes
import TaggedPayload.Proofs.Registry.SearchOrder

/-!
# Registries of tagged decoders

Of tagged decoders with distinct tags, one at most accepts a payload. A registry that holds nothing
else dispatches by its set of decoders and its fallback alone: the order of the calls, their kind,
the keys, the programs and decoders that come several times do not show in any outcome.
-/

set_option autoImplicit false

namespace TaggedPayload

/-- The registered decoders are these tagged decoders, each under one key or under several. -/
def Registry.Holds (r : Registry) (ds : List TaggedDecoder) : Prop :=
  ∀ d, (∃ h ∈ r.decoders, h.decoder = d) ↔ ∃ t ∈ ds, Decoder.tagged t = d

/-- The outcome of the decoder whose tag the payload starts with. -/
def taggedOutcome? (data : Bytes) (ds : List TaggedDecoder) : Option (Except DecodeError Event) :=
  (ds.find? fun t => t.accepts data).map fun t => t.decode data

theorem accepting_unique (ds : List TaggedDecoder) (htags : (ds.map (·.tag)).Nodup) (data : Bytes)
    (t u : TaggedDecoder) (ht : t ∈ ds) (hu : u ∈ ds) (htacc : t.accepts data = true)
    (huacc : u.accepts data = true) : t = u := by
  rw [TaggedDecoder.accepts, beq_iff_eq] at htacc huacc
  rw [htacc] at huacc
  exact List.inj_on_of_nodup_map htags ht hu (Option.some.inj huacc)

namespace Registry

theorem Holds.mem_outcomes {r : Registry} {ds : List TaggedDecoder} (hr : r.Sound)
    (h : r.Holds ds) (program : Option AccountKey) (data : Bytes)
    (o : Except DecodeError Event) :
    o ∈ outcomes data (r.candidates program).ranked ↔
      ∃ t ∈ ds, t.accepts data = true ∧ t.decode data = o := by
  rw [TaggedPayload.mem_outcomes]
  constructor
  · rintro ⟨g, hg, hacc, ho⟩
    obtain ⟨t, ht, hd⟩ := (h g.decoder).mp ⟨g, (mem_ranked r hr program g).mp hg, rfl⟩
    rw [← hd] at hacc ho
    exact ⟨t, ht, hacc, ho⟩
  · rintro ⟨t, ht, hacc, ho⟩
    obtain ⟨g, hg, hd⟩ := (h (.tagged t)).mpr ⟨t, ht, rfl⟩
    refine ⟨g, (mem_ranked r hr program g).mpr hg, ?_, ?_⟩
    · rw [hd]
      exact hacc
    · rw [hd]
      exact ho

theorem outcomes_candidates (r : Registry) (program : Option AccountKey) (data : Bytes) :
    TaggedPayload.outcomes data (r.candidates program).all =
      TaggedPayload.outcomes data (r.candidates program).ranked ++
        TaggedPayload.outcomes data r.fallback.toList :=
  outcomes_append data _ _

/-- The registered decoders have one outcome, as often as its decoder is asked, or none. -/
theorem Holds.outcomes {r : Registry} {ds : List TaggedDecoder} (hr : r.Sound) (h : r.Holds ds)
    (htags : (ds.map (·.tag)).Nodup) (program : Option AccountKey) (data : Bytes) :
    let os := TaggedPayload.outcomes data (r.candidates program).ranked
    (os = [] ∧ taggedOutcome? data ds = none) ∨
      ∃ o, os ≠ [] ∧ (∀ x ∈ os, x = o) ∧ taggedOutcome? data ds = some o := by
  intro os
  have hmem := h.mem_outcomes hr program data
  rw [taggedOutcome?]
  cases hfind : ds.find? fun t => t.accepts data with
  | none =>
    refine .inl ⟨List.eq_nil_iff_forall_not_mem.mpr ?_, rfl⟩
    intro o ho
    obtain ⟨t, ht, hacc, -⟩ := (hmem o).mp ho
    exact List.find?_eq_none.mp hfind t ht hacc
  | some t =>
    have ht := List.mem_of_find?_eq_some hfind
    have hacc : t.accepts data = true := by simpa using List.find?_some hfind
    refine .inr ⟨t.decode data, ?_, ?_, rfl⟩
    · exact List.ne_nil_of_mem ((hmem _).mpr ⟨t, ht, hacc, rfl⟩)
    · intro x hx
      obtain ⟨u, hu, huacc, rfl⟩ := (hmem x).mp hx
      rw [accepting_unique ds htags data u t hu ht huacc hacc]

theorem Holds.decode {r : Registry} {ds : List TaggedDecoder} (hr : r.Sound) (h : r.Holds ds)
    (htags : (ds.map (·.tag)).Nodup) (program : Option AccountKey) (data : Bytes) :
    r.decode data program =
      ((taggedOutcome? data ds).toList ++
        TaggedPayload.outcomes data r.fallback.toList).head?.getD (.error .notFound) := by
  rw [Registry.decode, Candidates.decode_outcomes, outcomes_candidates]
  rcases h.outcomes hr htags program data with ⟨hnil, hnone⟩ | ⟨o, hne, hsame, hsome⟩
  · rw [hnil, hnone]
    rfl
  · obtain ⟨x, xs, hos⟩ := List.exists_cons_of_ne_nil hne
    rw [hsome, hos, hsame x (by rw [hos]; exact List.mem_cons_self)]
    rfl

theorem Holds.decodeItem {r : Registry} {ds : List TaggedDecoder} (hr : r.Sound) (h : r.Holds ds)
    (htags : (ds.map (·.tag)).Nodup) (program : Option AccountKey) (data : Bytes)
    (hl : 8 ≤ data.length) :
    (r.candidates program).decodeItem data =
      bestEffort none ((taggedOutcome? data ds).toList ++
        TaggedPayload.outcomes data r.fallback.toList) := by
  rw [Candidates.decodeItem_outcomes _ data hl, outcomes_candidates]
  rcases h.outcomes hr htags program data with ⟨hnil, hnone⟩ | ⟨o, hne, hsame, hsome⟩
  · rw [hnil, hnone]
    rfl
  · rw [hsome]
    exact bestEffort_repeated none o _ _ hne hsame

end Registry

theorem outcomes_fallback (data : Bytes) (g h : Option Handle)
    (hsame : g.map (·.decoder) = h.map (·.decoder)) :
    outcomes data g.toList = outcomes data h.toList := by
  cases g with
  | none =>
    cases h with
    | none => rfl
    | some h => cases hsame
  | some g =>
    cases h with
    | none => cases hsame
    | some h =>
      have hd : g.decoder = h.decoder := Option.some.inj hsame
      simp [outcomes, List.filter_cons, hd, apply_ite (List.map _)]

/-- Two registries that hold the same tagged decoders, with distinct tags, and the same fallback
have the same outcome for every payload and the same result for every batch, whatever calls led to
them and whatever programs are asked for. -/
theorem same_decoders_same_dispatch (own own' : Nat → Decoder) (cs cs' : List RegistryCommand)
    (hcs : RegistryLog.Faithful own .empty cs) (hcs' : RegistryLog.Faithful own' .empty cs')
    (ds : List TaggedDecoder) (htags : (ds.map (·.tag)).Nodup) :
    let r := RegistryCommand.run .empty cs
    let s := RegistryCommand.run .empty cs'
    r.Holds ds → s.Holds ds → r.fallback.map (·.decoder) = s.fallback.map (·.decoder) →
      ∀ p q : Option AccountKey, (∀ data, r.decode data p = s.decode data q) ∧
        ∀ payloads options,
          ((r.candidates p).sequentialBatch payloads options).1 =
            ((s.candidates q).sequentialBatch payloads options).1 := by
  intro r s hr hs hfallback p q
  have hrsound : r.Sound := RegistryLog.run_sound own cs hcs
  have hssound : s.Sound := RegistryLog.run_sound own' cs' hcs'
  have hlast : ∀ data, outcomes data r.fallback.toList = outcomes data s.fallback.toList :=
    fun data => outcomes_fallback data r.fallback s.fallback hfallback
  constructor
  · intro data
    rw [hr.decode hrsound htags p, hs.decode hssound htags q, hlast]
  · intro payloads options
    apply Candidates.sequentialBatch_congr
    intro data _
    by_cases hl : 8 ≤ data.length
    · rw [hr.decodeItem hrsound htags p data hl, hs.decodeItem hssound htags q data hl, hlast]
    · have hshort := Nat.lt_of_not_le hl
      rw [Candidates.decodeItem_short _ data hshort, Candidates.decodeItem_short _ data hshort]

/-- The same two decoders, registered in both orders, one of them in a program's bucket or twice,
and a fallback that reads what a poisoned decoder cannot. -/
theorem same_decoders_same_dispatch_poisoned :
    let p : AccountKey := ⟨List.replicate 32 7, rfl⟩
    let swap : TaggedDecoder := ⟨"Swap", p, ⟨List.replicate 8 1, rfl⟩, fun _ => .error "poisoned"⟩
    let mint : TaggedDecoder := ⟨"Mint", .zero, ⟨List.replicate 8 2, rfl⟩, fun _ => .ok .null⟩
    let raw : Decoder := .gated ⟨"Raw", .zero, 9, fun bs => .ok (.bytes bs)⟩
    let own : Nat → Decoder := fun n =>
      if n = 0 then .tagged swap else if n = 1 then .tagged mint else raw
    let cs : List RegistryCommand :=
      [.setFallback ⟨.shared 2, raw⟩, .register "swap" ⟨.shared 0, .tagged swap⟩,
        .register "mint" ⟨.shared 1, .tagged mint⟩]
    let cs' : List RegistryCommand :=
      [.registerAll [("a", ⟨.shared 1, .tagged mint⟩), ("b", ⟨.shared 0, .tagged swap⟩),
        ("c", ⟨.shared 1, .tagged mint⟩)], .setFallback ⟨.shared 2, raw⟩]
    let r := RegistryCommand.run .empty cs
    let s := RegistryCommand.run .empty cs'
    let data : Bytes := List.replicate 8 1 ++ [5]
    RegistryLog.Faithful own .empty cs ∧ RegistryLog.Faithful own .empty cs' ∧
      (([swap, mint].map (·.tag)).Nodup ∧ r.Holds [swap, mint] ∧ s.Holds [swap, mint]) ∧
      r.decode data (some p) = .error (.failure "Swap" "poisoned") ∧
      s.decode data none = .error (.failure "Swap" "poisoned") ∧
      ((s.candidates none).sequentialBatch [data, [5]] ⟨true, 0⟩).1 =
        ⟨[⟨"Raw", .bytes data, data, .zero, none⟩], [(1, .tooShort 8 1)], 2⟩ := by
  intro p swap mint raw own cs cs' r s data
  have hcs : RegistryLog.Faithful own .empty cs := by
    refine ⟨?_, ?_, ?_, trivial⟩ <;> intro h hh <;> rw [List.mem_singleton.mp hh] <;> rfl
  have hcs' : RegistryLog.Faithful own .empty cs' := by
    refine ⟨?_, ?_, trivial⟩
    · intro h hh
      simp only [RegistryCommand.handles, List.map_cons, List.map_nil, List.mem_cons,
        List.not_mem_nil, or_false] at hh
      rcases hh with rfl | rfl | rfl <;> rfl
    · intro h hh
      rw [List.mem_singleton.mp hh]
      rfl
  have hr : r.decoders = [⟨.shared 0, .tagged swap⟩, ⟨.shared 1, .tagged mint⟩] := rfl
  have hs : s.decoders =
      [⟨.shared 1, .tagged mint⟩, ⟨.shared 0, .tagged swap⟩, ⟨.shared 1, .tagged mint⟩] := rfl
  have hrholds : r.Holds [swap, mint] := by
    intro d
    simp [hr]
  have hsholds : s.Holds [swap, mint] := by
    intro d
    simp only [hs, List.mem_cons, List.not_mem_nil, or_false, exists_eq_or_imp, exists_eq_left]
    tauto
  have htags : ([swap, mint].map (·.tag)).Nodup := by decide
  have hsame := same_decoders_same_dispatch own own cs cs' hcs hcs' [swap, mint] htags hrholds
    hsholds rfl (some p) none
  have hfault : r.decode data (some p) = .error (.failure "Swap" "poisoned") := by decide +kernel
  refine ⟨hcs, hcs', ⟨htags, hrholds, hsholds⟩, hfault, ?_, ?_⟩
  · rw [← hsame.1 data]
    exact hfault
  · rw [← hsame.2 [data, [5]] ⟨true, 0⟩]
    decide +kernel

end TaggedPayload
