import Mathlib.Data.List.Nodup
import TaggedPayload.Batch.Config
import TaggedPayload.Proofs.Batch.TurnsLeft
import TaggedPayload.Registry.Basic

/-!
# Batches do not depend on the order of work

A fan-out has the result of the sequential run without a bound on failures, however the payloads
are cut into chunks, in whatever order the workers take their turns and in whatever order their
messages arrive. So a batch has one result, which its number of workers and its threshold do not
change. The token is never cancelled here.
-/

set_option autoImplicit false

namespace TaggedPayload

namespace Fanout

/-! ## Messages and slots -/

theorem messages_index (setup : FanoutSetup) (start : Nat) (ps : List Bytes)
    (m : Nat × Outcome) (h : m ∈ messages setup start ps) :
    start ≤ m.1 ∧ m.1 < start + ps.length := by
  induction ps generalizing start with
  | nil => simp [messages] at h
  | cons data rest ih =>
    rw [List.length_cons]
    rcases List.mem_append.mp h with hd | hr
    · obtain ⟨o, -, rfl⟩ := Option.map_eq_some_iff.mp (Option.mem_toList.mp hd)
      simp
    · have := ih (start + 1) hr
      omega

theorem messages_nodup (setup : FanoutSetup) (start : Nat) (ps : List Bytes) :
    ((messages setup start ps).map (·.1)).Nodup := by
  induction ps generalizing start with
  | nil => simp [messages]
  | cons data rest ih =>
    rw [messages, List.map_append]
    refine List.Nodup.append ?_ (ih _) ?_
    · cases kept? setup data <;> simp
    · intro i hd hr
      obtain ⟨m, hm, rfl⟩ := List.mem_map.mp hr
      obtain ⟨p, hp, hpm⟩ := List.mem_map.mp hd
      obtain ⟨o, -, rfl⟩ := Option.map_eq_some_iff.mp (Option.mem_toList.mp hp)
      have := messages_index setup (start + 1) rest m hm
      simp only at hpm
      omega

/-- Messages with different indices can be put into the slots in any order. -/
theorem slots_perm (f : Fanout) (n : Nat) (ms : List (Nat × Outcome))
    (hms : (ms.map (·.1)).Nodup) (h : f.channel.Perm ms) :
    f.slots n = slots { f with channel := ms } n := by
  have hnd : (f.channel.map (·.1)).Nodup := (h.map (·.1)).nodup_iff.mpr hms
  unfold slots
  refine h.foldr_eq' (fun x hx y hy z => ?_) _
  -- Different slots are written in any order; one slot is written by one message only.
  by_cases hxy : x.1 = y.1
  · rw [List.inj_on_of_nodup_map hnd hx hy hxy]
  · exact Array.setIfInBounds_comm _ _ hxy

/-- The messages of payloads fill the slots behind those that are filled. -/
theorem messages_fill (setup : FanoutSetup) (before : List (Option Outcome)) (ps : List Bytes) :
    (messages setup before.length ps).foldr (fun m slots => slots.setIfInBounds m.1 (some m.2))
        (before ++ List.replicate ps.length none).toArray =
      (before ++ ps.map (kept? setup)).toArray := by
  induction ps generalizing before with
  | nil => simp [messages]
  | cons data rest ih =>
    have hrest := ih (before ++ [none])
    simp only [List.length_append, List.length_singleton, List.append_assoc,
      List.singleton_append] at hrest
    rw [messages, List.foldr_append, List.length_cons, List.replicate_succ, hrest, List.map_cons]
    cases kept? setup data with
    | none => simp
    | some o => simp

/-- Sorting out the slots of a whole batch finds what the sequential run finds. -/
theorem sortOut_kept (setup : FanoutSetup) (index failed : Nat) (ps : List Bytes) :
    sortOut index (ps.map (kept? setup)) =
      ((tally setup.decode ⟨setup.collectErrors, 0⟩ index failed ps).events,
        (tally setup.decode ⟨setup.collectErrors, 0⟩ index failed ps).errors) := by
  induction ps generalizing index failed with
  | nil => rfl
  | cons data rest ih =>
    cases hd : setup.decode data with
    | ok e =>
      have hk : kept? setup data = some (.ok e) := by simp [kept?, hd, Except.isOk, Except.toBool]
      simp [sortOut, tally, hd, hk, ih (index + 1) failed]
    | error fault =>
      cases hcol : setup.collectErrors with
      | false =>
        have hk : kept? setup data = none := by
          simp [kept?, hd, hcol, Except.isOk, Except.toBool]
        simp [sortOut, tally, hd, hk, ih (index + 1) (failed + 1), hcol]
      | true =>
        have hk : kept? setup data = some (.error fault) := by simp [kept?, hd, hcol]
        simp [sortOut, tally, hd, hk, ih (index + 1) (failed + 1), hcol]

theorem done_result (setup : FanoutSetup) (ps : List Bytes) (f : Fanout)
    (arrived : List (Nat × Outcome)) (h : Conserved setup (messages setup 0 ps) f)
    (hc : f.cancelled = false) (hd : f.isDone) (ha : arrived.Perm f.channel) :
    result { f with channel := arrived } ps.length =
      ⟨(tally setup.decode ⟨setup.collectErrors, 0⟩ 0 0 ps).events,
        (tally setup.decode ⟨setup.collectErrors, 0⟩ 0 0 ps).errors, ps.length⟩ := by
  have hp : arrived.Perm (messages setup 0 ps) := ha.trans (done_channel setup _ f h hc hd)
  have hslots : (slots { f with channel := arrived } ps.length).toList = ps.map (kept? setup) := by
    rw [slots_perm _ _ _ (messages_nodup setup 0 ps) hp]
    have hfill := messages_fill setup [] ps
    simp only [List.length_nil, List.nil_append] at hfill
    rw [slots, ← List.toArray_replicate, hfill]
  rw [result, hslots, sortOut_kept setup 0 0 ps]

/-! ## Chunks -/

theorem workerCount_pos (requested n : Nat) : 0 < workerCount requested n := by
  unfold workerCount
  omega

/-- The chunks of a batch are its payloads in order; an empty batch has none. -/
theorem batch_chunks (requested : Nat) (ps : List Bytes) :
    (chunks (chunkSize ps.length (workerCount requested ps.length)) ps).flatten = ps := by
  cases ps with
  | nil => unfold chunks; simp
  | cons data rest =>
    apply flatten_chunks
    have hw := workerCount_pos requested (data :: rest).length
    exact Nat.div_pos (by rw [List.length_cons]; omega) hw

end Fanout

/-! ## Results of a batch -/

namespace Candidates

def fanoutAfter (c : Candidates) (payloads : List Bytes) (workers : Nat) (collectErrors : Bool)
    (schedule : List Turn) : Fanout :=
  let n := payloads.length
  (Fanout.start false (chunks (Fanout.chunkSize n (Fanout.workerCount workers n)) payloads)).run
    ⟨c.decodeItem, collectErrors⟩ schedule

/-- What fanning out may lead to: the workers take turns in any order until all have stopped, and
their messages arrive in any order. -/
def FannedOut (c : Candidates) (payloads : List Bytes) (workers : Nat) (collectErrors : Bool)
    (result : BatchResult) : Prop :=
  ∃ schedule arrived, .cancel ∉ schedule ∧
    (c.fanoutAfter payloads workers collectErrors schedule).isDone ∧
    arrived.Perm (c.fanoutAfter payloads workers collectErrors schedule).channel ∧
    result = Fanout.result
      { c.fanoutAfter payloads workers collectErrors schedule with channel := arrived }
      payloads.length

inductive Batched (c : Candidates) (config : BatchConfig) (payloads : List Bytes) :
    BatchResult → Prop
  | sequential (h : payloads.length < config.parallelThreshold ∨ config.maxErrors ≠ 0) :
      Batched c config payloads (c.sequentialBatch payloads config.options).1
  | parallel {result : BatchResult} (long : config.parallelThreshold ≤ payloads.length)
      (unbounded : config.maxErrors = 0)
      (h : c.FannedOut payloads config.workers config.collectErrors result) :
      Batched c config payloads result

theorem fannedOut_sequential (c : Candidates) (payloads : List Bytes) (workers : Nat)
    (collectErrors : Bool) (result : BatchResult)
    (h : c.FannedOut payloads workers collectErrors result) :
    result = (c.sequentialBatch payloads ⟨collectErrors, 0⟩).1 := by
  obtain ⟨schedule, arrived, hc, hd, ha, rfl⟩ := h
  have hstart := Fanout.start_conserved ⟨c.decodeItem, collectErrors⟩ false
    (chunks (Fanout.chunkSize payloads.length (Fanout.workerCount workers payloads.length)) payloads)
  rw [Fanout.batch_chunks] at hstart
  have hrun := Fanout.run_conserved _ _ schedule _ hstart
  refine Fanout.done_result _ payloads _ arrived hrun ?_ hd ha
  rw [← Bool.not_eq_true, Fanout.run_cancelled]
  simp [hc, Fanout.start]

/-- The schedule that lets one worker finish after the other is one of those allowed. -/
theorem parallelBatch_fannedOut (c : Candidates) (payloads : List Bytes) (workers : Nat)
    (collectErrors : Bool) :
    c.FannedOut payloads workers collectErrors
      (c.parallelBatch payloads workers collectErrors).1 :=
  ⟨_, _, Fanout.inOrder_uncancelled 0 0 _, Fanout.inOrder_done _ false none _, .refl _, rfl⟩

theorem parallelBatch_sequential (c : Candidates) (payloads : List Bytes) (workers : Nat)
    (collectErrors : Bool) :
    (c.parallelBatch payloads workers collectErrors).1 =
      (c.sequentialBatch payloads ⟨collectErrors, 0⟩).1 :=
  fannedOut_sequential c payloads workers collectErrors _
    (parallelBatch_fannedOut c payloads workers collectErrors)

theorem fannedOut_iff (c : Candidates) (payloads : List Bytes) (workers : Nat)
    (collectErrors : Bool) (result : BatchResult) :
    c.FannedOut payloads workers collectErrors result ↔
      result = (c.sequentialBatch payloads ⟨collectErrors, 0⟩).1 := by
  constructor
  · exact fannedOut_sequential c payloads workers collectErrors result
  · rintro rfl
    rw [← parallelBatch_sequential c payloads workers]
    exact parallelBatch_fannedOut c payloads workers collectErrors

theorem batched_iff (c : Candidates) (config : BatchConfig) (payloads : List Bytes)
    (result : BatchResult) :
    c.Batched config payloads result ↔
      result = (c.sequentialBatch payloads config.options).1 := by
  constructor
  · rintro (h | ⟨long, unbounded, h⟩)
    · rfl
    · rw [fannedOut_sequential c payloads _ _ result h, BatchConfig.options, unbounded]
  · rintro rfl
    by_cases h : payloads.length < config.parallelThreshold ∨ config.maxErrors ≠ 0
    · exact .sequential h
    · have long : config.parallelThreshold ≤ payloads.length := by omega
      have unbounded : config.maxErrors = 0 := by omega
      refine .parallel long unbounded ?_
      rw [fannedOut_iff, BatchConfig.options, unbounded]

theorem batch_sequential (c : Candidates) (config : BatchConfig) (payloads : List Bytes) :
    (c.batch config payloads).1 = (c.sequentialBatch payloads config.options).1 := by
  by_cases h : config.parallelThreshold ≤ payloads.length ∧ config.maxErrors = 0
  · have hb : (c.batch config payloads).1 =
        (c.parallelBatch payloads config.workers config.collectErrors).1 := by
      simp [batch, h.1, h.2]
    rw [hb, parallelBatch_sequential, BatchConfig.options, h.2]
  · have hf : (decide (config.parallelThreshold ≤ payloads.length) && config.maxErrors == 0) =
        false := by simpa using h
    simp [batch, hf]

end Candidates

/-- Fanned out or not, a batch has exactly one result, that of the sequential run with its options:
neither the number of workers nor the threshold, neither the workers' turns nor the arrival of
their messages shows in it. -/
theorem batch_any_order (r : Registry) (program : Option AccountKey) (payloads : List Bytes)
    (config : BatchConfig) (workers : Nat) :
    (∀ result, (r.candidates program).Batched config payloads result ↔
      result = ((r.candidates program).sequentialBatch payloads config.options).1) ∧
    ((r.candidates program).batch config payloads).1 =
      ((r.candidates program).sequentialBatch payloads config.options).1 ∧
    (∀ result, (r.candidates program).FannedOut payloads workers false result ↔
      result = ((r.candidates program).sequentialBatch payloads ⟨false, 0⟩).1) ∧
    ((r.candidates program).parallelBatch payloads workers false).1.events =
      ((r.candidates program).sequentialBatch payloads ⟨false, 0⟩).1.events := by
  refine ⟨?_, ?_, ?_, ?_⟩
  · exact Candidates.batched_iff _ config payloads
  · exact Candidates.batch_sequential _ config payloads
  · exact Candidates.fannedOut_iff _ payloads workers false
  · rw [Candidates.parallelBatch_sequential]

end TaggedPayload
