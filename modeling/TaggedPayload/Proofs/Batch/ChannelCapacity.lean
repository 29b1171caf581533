import TaggedPayload.Proofs.Batch.Cancellation
import TaggedPayload.Proofs.Batch.Shares

/-!
# Room for the messages of a batch

Nothing is taken out of the channel before all workers have stopped, so a worker that found it full
would wait for ever. With a place for each payload no worker ever does: the channel and the messages
still owed are together one message for each payload at most, in whatever order the workers take
their turns and whenever the token is cancelled.
-/

set_option autoImplicit false

namespace TaggedPayload

namespace Fanout

/-! ## A channel of limited capacity -/

def sends? (setup : FanoutSetup) (f : Fanout) : Turn → Option (Nat × Outcome)
  | .cancel => none
  | .advance i => f.workers[i]?.bind fun w => (Worker.turn setup f.cancelled w).2.2

/-- The turn of a worker that has a message, but finds no place in the channel for it. -/
def waits (setup : FanoutSetup) (capacity : Nat) (f : Fanout) (t : Turn) : Bool :=
  (f.sends? setup t).isSome && decide (capacity ≤ f.channel.length)

/-- Carries out a schedule in which turns without a place for their message have no effect. -/
def boundedRun (setup : FanoutSetup) (capacity : Nat) (f : Fanout) : List Turn → Fanout
  | [] => f
  | t :: ts =>
    boundedRun setup capacity (if f.waits setup capacity t then f else f.step setup t) ts

theorem step_channel (setup : FanoutSetup) (f : Fanout) (t : Turn) :
    (f.step setup t).channel = (f.sends? setup t).toList ++ f.channel := by
  cases t with
  | cancel => rfl
  | advance i =>
    cases hw : f.workers[i]? with
    | none => simp [step_advance_none setup f i hw, sends?, hw]
    | some w => simp [step_advance setup f i w hw, sends?, hw]

/-- A turn whose message has a place in the end did not wait for one. -/
theorem waits_of_step (setup : FanoutSetup) (capacity : Nat) (f : Fanout) (t : Turn)
    (h : (f.step setup t).channel.length ≤ capacity) : f.waits setup capacity t = false := by
  rw [step_channel, List.length_append] at h
  cases hsent : f.sends? setup t with
  | none => simp [waits, hsent]
  | some m =>
    rw [hsent, Option.toList_some, List.length_singleton] at h
    simp [waits, hsent]
    omega

theorem run_append (setup : FanoutSetup) (ts us : List Turn) (f : Fanout) :
    f.run setup (ts ++ us) = (f.run setup ts).run setup us := by
  induction ts generalizing f with
  | nil => rfl
  | cons t ts ih => exact ih (f.step setup t)

theorem boundedRun_eq_run (setup : FanoutSetup) (capacity : Nat) (ts : List Turn) (f : Fanout)
    (h : ∀ before, (f.run setup before).channel.length ≤ capacity) :
    f.boundedRun setup capacity ts = f.run setup ts := by
  induction ts generalizing f with
  | nil => rfl
  | cons t ts ih =>
    rw [boundedRun, waits_of_step setup capacity f t (h [t]), run]
    exact ih (f.step setup t) fun before => h (t :: before)

/-! ## The messages in the channel -/

theorem messages_length (setup : FanoutSetup) (start : Nat) (ps : List Bytes) :
    (messages setup start ps).length ≤ ps.length := by
  induction ps generalizing start with
  | nil => exact Nat.le_refl 0
  | cons data rest ih =>
    have hrest := ih (start + 1)
    rw [messages, List.length_append, List.length_cons]
    cases kept? setup data <;> simp <;> omega

/-- The messages in the channel are those of different payloads. -/
theorem Conserved.channel_subperm {setup : FanoutSetup} {ms : List (Nat × Outcome)} {f : Fanout}
    (h : Conserved setup ms f) : f.channel.Subperm ms :=
  (List.sublist_append_left f.channel _).subperm.trans h.perm.subperm

theorem slots_size (f : Fanout) (n : Nat) : (f.slots n).size = n := by
  rw [slots]
  induction f.channel with
  | nil => simp
  | cons m ms ih => simpa using ih

theorem fanoutStart_conserved (setup : FanoutSetup) (ps : List Bytes) (requested : Nat)
    (beforehand : Bool) (schedule : List Turn) :
    Conserved setup (messages setup 0 ps)
      ((Candidates.fanoutStart ps requested beforehand).run setup schedule) := by
  have hstart := start_conserved setup beforehand (chunks (Candidates.share ps requested) ps)
  rw [Candidates.share, batch_chunks] at hstart
  exact run_conserved setup _ schedule _ hstart

theorem fanoutStart_channel (setup : FanoutSetup) (ps : List Bytes) (requested : Nat)
    (beforehand : Bool) (schedule : List Turn) :
    ((Candidates.fanoutStart ps requested beforehand).run setup schedule).channel.length ≤
      ps.length :=
  Nat.le_trans
    (fanoutStart_conserved setup ps requested beforehand schedule).channel_subperm.length_le
    (messages_length setup 0 ps)

/-- Of different payloads there are different messages. -/
theorem subperm_nodup {ms ns : List (Nat × Outcome)} (h : ms.Subperm ns)
    (hns : (ns.map (·.1)).Nodup) : (ms.map (·.1)).Nodup := by
  obtain ⟨ls, hperm, hsub⟩ := h
  exact (hperm.map (·.1)).nodup_iff.mp ((hsub.map (·.1)).nodup hns)

/-- A chunk ends before the payloads do, so its indices are indices of payloads. -/
theorem chunk_end (size : Nat) (ps : List Bytes) (pos : 0 < size) (c : List Bytes × Nat)
    (hc : c ∈ (chunks size ps).zipIdx) : c.1 ≠ [] ∧ c.2 * size + c.1.length ≤ ps.length := by
  have hne := mem_chunks_ne_nil size ps c.1 (List.fst_mem_of_mem_zipIdx hc)
  have hlength : 0 < c.1.length := List.length_pos_iff.mpr hne
  have hlast : c.2 * size + (c.1.length - 1) ∈ List.range' (0 * size) ps.length := by
    rw [← chunks_indices size 0 ps pos]
    refine List.mem_flatMap.mpr ⟨c, hc, List.mem_map.mpr ⟨c.1.length - 1, ?_, rfl⟩⟩
    exact List.mem_range.mpr (by omega)
  rw [List.mem_range'_1] at hlast
  exact ⟨hne, by omega⟩

end Fanout

/-- A batch of `n` payloads has at least one worker and at most `n`, the size of a chunk is `n` over
the number of workers, rounded up, and the chunks are not more than the workers. The multiples of
the size plus the places in the chunks are the indices of the payloads, each of them once and none
of them beyond `n`, and each worker starts at its multiple. At any time, the channel holds at most
`n` messages with different indices, all of which have a slot; with `n` places no turn has to wait,
and the run is the one without a limit. -/
theorem channel_never_full (setup : FanoutSetup) (requested : Nat) (ps : List Bytes)
    (h : ps ≠ []) :
    let n := ps.length
    let w := Fanout.workerCount requested n
    let size := Fanout.chunkSize n w
    let cs := chunks size ps
    (1 ≤ w ∧ w ≤ n) ∧ (1 ≤ size ∧ size ≤ n ∧ n ≤ size * w ∧ size * w < n + w) ∧ cs.length ≤ w ∧
    cs.zipIdx.flatMap (fun c => (List.range c.1.length).map (c.2 * size + ·)) = List.range n ∧
    (∀ c ∈ cs.zipIdx, c.1 ≠ [] ∧ c.2 * size + c.1.length ≤ n) ∧
    ∀ beforehand,
      let start := Candidates.fanoutStart ps requested beforehand
      start.workers = (cs.zipIdx.map fun c => ⟨c.2 * size, c.1, .look⟩).toArray ∧
      ∀ schedule,
        let f := start.run setup schedule
        f.channel.length ≤ n ∧ (f.channel.map (·.1)).Nodup ∧
        (∀ m ∈ f.channel, m.1 < (f.slots n).size) ∧
        (∀ t, f.waits setup n t = false) ∧ start.boundedRun setup n schedule = f := by
  intro n w size cs
  have hn : 0 < n := List.length_pos_iff.mpr h
  have hw : 0 < w := Fanout.workerCount_pos requested n
  obtain ⟨hsize, hsizen⟩ := Fanout.chunkSize_range n w hn hw
  refine ⟨⟨hw, Fanout.workerCount_le requested n hn⟩, ⟨hsize, hsizen, Fanout.chunkSize_mul n w hw⟩,
    Fanout.chunks_le_workers w ps hw h, ?_, Fanout.chunk_end size ps hsize,
    fun beforehand => ⟨?_, fun schedule => ?_⟩⟩
  · have hindices := Fanout.chunks_indices size 0 ps hsize
    rwa [Nat.zero_mul, ← List.range_eq_range'] at hindices
  · have hworkers := Fanout.workersFrom_chunks size 0 ps hsize
    rw [Nat.zero_mul] at hworkers
    exact congrArg List.toArray hworkers
  · have hroom := Fanout.fanoutStart_channel setup ps requested beforehand
    have hsub := (Fanout.fanoutStart_conserved setup ps requested beforehand
      schedule).channel_subperm
    refine ⟨hroom schedule, ?_, fun m hm => ?_, fun t => ?_, ?_⟩
    · exact Fanout.subperm_nodup hsub (Fanout.messages_nodup setup 0 ps)
    · rw [Fanout.slots_size]
      have hindex := (Fanout.messages_index setup 0 ps m (hsub.subset hm)).2
      rwa [Nat.zero_add] at hindex
    · apply Fanout.waits_of_step
      have hnext := hroom (schedule ++ [t])
      rwa [Fanout.run_append] at hnext
    · exact Fanout.boundedRun_eq_run setup n schedule _ hroom

/-- Four workers for five payloads: chunks of two, so that one worker has nothing to do and another
one a single payload. All outcomes are sent, and the channel is full in the end; with a place less,
the last message would stay with its worker. -/
theorem channel_never_full_uneven :
    let ps : List Bytes := [[1], [2], [3], [4], [5]]
    let setup : FanoutSetup := ⟨fun _ => .error (.noneAccepts "registry"), true⟩
    let start := Candidates.fanoutStart ps 4 false
    let schedule := (List.replicate 9 [.advance 2, .advance 0, .advance 1]).flatten
    ps ≠ [] ∧ Fanout.workerCount 4 5 = 4 ∧ Fanout.chunkSize 5 4 = 2 ∧ start.workers.size = 3 ∧
      (start.run setup schedule).channel.map (·.1) = [3, 1, 2, 0, 4] ∧
      start.boundedRun setup 5 schedule = start.run setup schedule ∧
      (start.boundedRun setup 4 schedule).channel.map (·.1) = [1, 2, 0, 4] := by
  intro ps setup start schedule
  have hps : ps ≠ [] := by decide
  obtain ⟨-, -, -, -, -, hchannel⟩ := channel_never_full setup 4 ps hps
  obtain ⟨-, hruns⟩ := hchannel false
  obtain ⟨-, -, -, -, hbounded⟩ := hruns schedule
  exact ⟨hps, by decide, by decide, by decide +kernel, by decide +kernel, hbounded,
    by decide +kernel⟩

end TaggedPayload
