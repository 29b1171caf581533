import TaggedPayload.Proofs.Batch.Accounting
import TaggedPayload.Proofs.Registry.Calls
import TaggedPayload.Proofs.Registry.Outcomes

/-!
# Payloads that only one decoder accepts

The order in which candidates are asked matters only where several of them accept a payload. A
payload that exactly one decoder accepts has that decoder's outcome, strictly or in a batch, and
with any program, since every program's candidates are all registered decoders in some order.
-/

set_option autoImplicit false

namespace TaggedPayload

/-! ## Registered decoders and candidates -/

namespace Registry

/-- The decoders that belong to programs are registered, and identities tell decoders apart. -/
structure Sound (r : Registry) : Prop where
  owned : ∀ e ∈ r.owned, e.2 ∈ r.decoders
  coherent : Coherent r.decoders

theorem insert_decoders (r : Registry) (key : String) (program : Option AccountKey) (h : Handle) :
    (r.insert key program h).decoders = r.decoders ++ [h] := by
  rw [decoders, insert, List.map_append]
  rfl

theorem insertAll_decoders (r : Registry) (es : List (String × Handle)) :
    (r.insertAll es).decoders = r.decoders ++ es.map (·.2) := by
  rw [decoders, insertAll_entries, List.map_append]
  rfl

theorem insertAll_keys (r : Registry) (es : List (String × Handle)) :
    (r.insertAll es).keys = r.keys ++ es.map (·.1) := by
  rw [keys, insertAll_entries, List.map_append]
  rfl

theorem insertAll_fallback (r : Registry) (es : List (String × Handle)) :
    (r.insertAll es).fallback = r.fallback := by
  induction es generalizing r with
  | nil => rfl
  | cons e es ih => exact ih _

theorem registerAll_ok (r s : Registry) (es : List (String × Handle))
    (h : r.registerAll es = .ok s) : s = r.insertAll es := by
  rw [registerAll_eq] at h
  split at h
  · cases h
  · exact (Except.ok.inj h).symm

/-- Loading the layouts of a text inserts their decoders, and counts them. -/
theorem loadLayouts_ok (r s : Registry) (yaml : String) (h : r.loadLayouts yaml = .ok s) :
    ∃ ls n, Layout.readAll yaml = .ok ls ∧
      s = { r.insertAll (loadedEntries r.loaded ls) with loaded := n } := by
  rw [loadLayouts_eq] at h
  split at h
  · cases h
  · next ls hread =>
    cases hall : r.registerAll (loadedEntries r.loaded ls) with
    | error e =>
      rw [hall] at h
      cases h
    | ok t =>
      rw [hall] at h
      cases h
      exact ⟨ls, _, hread, by rw [registerAll_ok r t _ hall]⟩

theorem insert_owned (r : Registry) (key : String) (program : Option AccountKey) (h : Handle)
    (hr : ∀ e ∈ r.owned, e.2 ∈ r.decoders) :
    ∀ e ∈ (r.insert key program h).owned, e.2 ∈ (r.insert key program h).decoders := by
  intro e he
  rw [insert_decoders, List.mem_append]
  rcases List.mem_append.mp he with hold | hnew
  · exact Or.inl (hr e hold)
  · obtain ⟨p, -, rfl⟩ := Option.map_eq_some_iff.mp (Option.mem_toList.mp hnew)
    exact Or.inr List.mem_cons_self

theorem insertAll_owned (r : Registry) (es : List (String × Handle))
    (hr : ∀ e ∈ r.owned, e.2 ∈ r.decoders) :
    ∀ e ∈ (r.insertAll es).owned, e.2 ∈ (r.insertAll es).decoders := by
  induction es generalizing r with
  | nil => exact hr
  | cons e es ih => exact ih _ (insert_owned r _ _ _ hr)

theorem insertAll_sound (r : Registry) (es : List (String × Handle)) (hr : r.Sound)
    (hc : Coherent (r.decoders ++ es.map (·.2))) : (r.insertAll es).Sound where
  owned := insertAll_owned r es hr.owned
  coherent := by rwa [insertAll_decoders]

theorem mem_bucket (r : Registry) (hr : ∀ e ∈ r.owned, e.2 ∈ r.decoders) (program : AccountKey)
    (h : Handle) (hb : h ∈ r.bucket program) : h ∈ r.decoders := by
  obtain ⟨e, he, rfl⟩ := List.mem_map.mp hb
  exact hr e (List.mem_filter.mp he).1

theorem mem_first (r : Registry) (hr : ∀ e ∈ r.owned, e.2 ∈ r.decoders)
    (program : Option AccountKey) (h : Handle) (hh : h ∈ (program.map r.bucket).getD []) :
    h ∈ r.decoders := by
  cases program with
  | none => exact absurd hh List.not_mem_nil
  | some p => exact mem_bucket r hr p h hh

/-- Dispatch asks registered decoders and the fallback only. -/
theorem mem_candidates (r : Registry) (hr : ∀ e ∈ r.owned, e.2 ∈ r.decoders)
    (program : Option AccountKey) (h : Handle) (hh : h ∈ (r.candidates program).all) :
    h ∈ r.decoders ++ r.fallback.toList := by
  rcases List.mem_append.mp hh with hranked | hlast
  · refine List.mem_append_left _ ?_
    rcases List.mem_append.mp hranked with hfirst | hrest
    · exact mem_first r hr program h hfirst
    · exact (List.mem_filter.mp hrest).1
  · exact List.mem_append_right _ hlast

/-- Whatever the program, the candidates before the fallback are the registered decoders. -/
theorem mem_ranked (r : Registry) (hr : r.Sound) (program : Option AccountKey) (h : Handle) :
    h ∈ (r.candidates program).ranked ↔ h ∈ r.decoders := by
  have hfirst := mem_first r hr.owned program
  rw [candidates, List.mem_append, List.mem_filter]
  constructor
  · rintro (hf | ⟨hd, -⟩)
    · exact hfirst h hf
    · exact hd
  · intro hd
    -- A decoder is left out only if its identity is in the bucket, and then it is there itself.
    by_cases hf : ((program.map r.bucket).getD []).any (·.isSame h) = true
    · obtain ⟨g, hg, hsame⟩ := List.any_eq_true.mp hf
      have hgh : g = h := hr.coherent g (hfirst g hg) h hd (beq_iff_eq.mp hsame)
      exact Or.inl (hgh ▸ hg)
    · exact Or.inr ⟨hd, by simpa using hf⟩

end Registry

/-! ## Dispatch -/

/-- All handles among these that accept a payload have one outcome, and some handle does. -/
structure Agree (hs : List Handle) (data : Bytes) (outcome : Except DecodeError Event) : Prop where
  accepted : ∃ h ∈ hs, h.decoder.accepts data = true
  outcome : ∀ h ∈ hs, h.decoder.accepts data = true → h.decoder.decode data = outcome

theorem Agree.outcomes {hs : List Handle} {data : Bytes} {outcome : Except DecodeError Event}
    (h : Agree hs data outcome) : ∃ os, outcomes data hs = outcome :: os := by
  obtain ⟨g, hg, hacc⟩ := h.accepted
  have hmem := (mem_outcomes data hs _).mpr ⟨g, hg, hacc, rfl⟩
  obtain ⟨o, os, hos⟩ := List.exists_cons_of_ne_nil (List.ne_nil_of_mem hmem)
  have ho : o ∈ TaggedPayload.outcomes data hs := by simp [hos]
  obtain ⟨k, hk, hkacc, rfl⟩ := (mem_outcomes data hs o).mp ho
  exact ⟨os, by rw [hos, h.outcome k hk hkacc]⟩

namespace Candidates

theorem decode_agree (c : Candidates) (data : Bytes) (outcome : Except DecodeError Event)
    (h : Agree c.all data outcome) : c.decode data = outcome := by
  obtain ⟨os, hos⟩ := h.outcomes
  rw [decode_outcomes, hos]
  rfl

theorem decodeItem_agree (c : Candidates) (data : Bytes) (e : Event) (hl : 8 ≤ data.length)
    (h : Agree c.all data (.ok e)) : c.decodeItem data = .ok e := by
  obtain ⟨os, hos⟩ := h.outcomes
  rw [decodeItem_outcomes c data hl, hos]
  rfl

/-! ## Batches -/

theorem tally_congr (f g : Bytes → Except DecodeError Event) (options : BatchOptions)
    (index failed : Nat) (ps : List Bytes) (h : ∀ data ∈ ps, f data = g data) :
    tally f options index failed ps = tally g options index failed ps := by
  induction ps generalizing index failed with
  | nil => rfl
  | cons data rest ih =>
    have hrest : ∀ d ∈ rest, f d = g d := fun d hd => h d (List.mem_cons_of_mem data hd)
    rw [tally, tally, h data List.mem_cons_self]
    cases g data with
    | ok e => simp only [ih (index + 1) failed hrest]
    | error fault => simp only [ih (index + 1) (failed + 1) hrest]

/-- Batches whose payloads have the same outcomes have the same result. -/
theorem sequentialBatch_congr (c d : Candidates) (payloads : List Bytes) (options : BatchOptions)
    (h : ∀ data ∈ payloads, c.decodeItem data = d.decodeItem data) :
    (c.sequentialBatch payloads options).1 = (d.sequentialBatch payloads options).1 := by
  simp only [sequentialBatch, tally_congr c.decodeItem d.decodeItem options 0 0 payloads h]

/-- A batch without a bound on failures has the events of its payloads in order. -/
theorem sequentialBatch_events (c : Candidates) (payloads : List Bytes) (collectErrors : Bool) :
    (c.sequentialBatch payloads ⟨collectErrors, 0⟩).1.events =
      payloads.filterMap fun data => (c.decodeItem data).toOption := by
  show (tally c.decodeItem ⟨collectErrors, 0⟩ 0 0 payloads).events = _
  rw [tally_complete c.decodeItem _ payloads (.inl rfl)]
  rfl

end Candidates

end TaggedPayload
