import TaggedPayload.Proofs.Batch.AnyOrder
import TaggedPayload.Proofs.Batch.TakenUp

/-!
# Cancelling a batch

The workers look at the token before each payload, the batch looks at it once more when they have
stopped, and a cancelled token is never set back. So what one worker has seen the batch sees, too:
either the batch has all events of the sequential run, or it has none and says how many payloads
were taken up. Decoders may cancel the token; their turns do, at any place of a schedule.
-/

set_option autoImplicit false

namespace TaggedPayload

/-- In this turn a worker with a pending payload looks at the token and finds it cancelled. -/
def Fanout.seesCancelled (f : Fanout) : Turn → Bool
  | .cancel => false
  | .advance i =>
    f.cancelled && f.workers[i]?.any fun w => w.phase matches .look && !w.pending.isEmpty

namespace Candidates

/-- The payloads of a worker, except perhaps of the last one. -/
def share (payloads : List Bytes) (workers : Nat) : Nat :=
  Fanout.chunkSize payloads.length (Fanout.workerCount workers payloads.length)

def fanoutStart (payloads : List Bytes) (workers : Nat) (beforehand : Bool) : Fanout :=
  .start beforehand (chunks (share payloads workers) payloads)

section
variable (c : Candidates) (payloads : List Bytes) (workers : Nat)

def cancellableAfter (beforehand : Bool) (schedule : List Turn) : Fanout :=
  (fanoutStart payloads workers beforehand).run ⟨c.decodeItem, false⟩ schedule

/-- One way of carrying out a batch: the workers take turns until all have stopped, the token is
cancelled before, between or behind these turns or not at all, and the messages arrive. -/
structure CancellableRun where
  beforehand : Bool
  schedule : List Turn
  done : (c.cancellableAfter payloads workers beforehand schedule).isDone
  arrived : List (Nat × Outcome)
  arrived_perm : arrived.Perm (c.cancellableAfter payloads workers beforehand schedule).channel

end

namespace CancellableRun

variable {c : Candidates} {payloads : List Bytes} {workers : Nat}
  (run : c.CancellableRun payloads workers)

def last : Fanout :=
  c.cancellableAfter payloads workers run.beforehand run.schedule

def ending : Except Cancelled (List Event) :=
  if run.last.cancelled then .error ⟨run.last.processed⟩
  else .ok (Fanout.result { run.last with channel := run.arrived } payloads.length).events

def taken : List Fanout.Taken :=
  (fanoutStart payloads workers run.beforehand).taken ⟨c.decodeItem, false⟩ run.schedule

def Cancels : Prop :=
  run.beforehand = true ∨ .cancel ∈ run.schedule

def Observed : Prop :=
  ∃ before t after, run.schedule = before ++ t :: after ∧
    (c.cancellableAfter payloads workers run.beforehand before).seesCancelled t = true

theorem last_cancelled : run.last.cancelled = true ↔ run.Cancels :=
  Fanout.run_cancelled _ _ _

theorem last_processed : run.last.processed = run.taken.length := by
  rw [last, cancellableAfter, Fanout.run_processed]
  exact Nat.zero_add _

/-- The token is not set back between the look of a worker and that of the batch. -/
theorem cancels_of_observed (h : run.Observed) : run.Cancels := by
  obtain ⟨before, t, after, hschedule, hsees⟩ := h
  have hseen : (c.cancellableAfter payloads workers run.beforehand before).cancelled = true := by
    cases t with
    | cancel => cases hsees
    | advance i => exact (Bool.and_eq_true_iff.mp hsees).1
  rcases (Fanout.run_cancelled _ before _).mp hseen with hbeforehand | hcancel
  · exact .inl hbeforehand
  · right
    rw [hschedule]
    exact List.mem_append_left _ hcancel

theorem ending_cancelled (h : run.Cancels) : run.ending = .error ⟨run.taken.length⟩ := by
  rw [ending, if_pos (run.last_cancelled.mpr h), last_processed]

theorem ending_uncancelled (h : ¬ run.Cancels) :
    run.ending = .ok (c.sequentialBatch payloads ⟨false, 0⟩).1.events := by
  obtain ⟨beforehand, schedule, done, arrived, arrived_perm⟩ := run
  obtain ⟨hbeforehand, hcancel⟩ := not_or.mp h
  obtain rfl : beforehand = false := Bool.not_eq_true _ ▸ hbeforehand
  have hlast := mt (last_cancelled _).mp h
  rw [ending, if_neg hlast]
  -- Without a cancelled token this is a batch that was fanned out.
  exact congrArg (fun result => Except.ok result.events) (fannedOut_sequential c payloads workers
    false _ ⟨schedule, arrived, hcancel, done, arrived_perm, rfl⟩)

theorem taken_once : (run.taken.map (·.2)).Subperm payloads.zipIdx := by
  have honce := Fanout.taken_once ⟨c.decodeItem, false⟩ run.beforehand
    (chunks (share payloads workers) payloads) run.schedule
  rwa [share, Fanout.batch_chunks] at honce

theorem taken_length : run.taken.length ≤ payloads.length := by
  have hlength := run.taken_once.length_le
  rwa [List.length_map, List.length_zipIdx] at hlength

theorem taken_beforehand (h : run.beforehand = true) : run.taken = [] := by
  rw [taken, h]
  exact Fanout.taken_beforehand _ _ _

end CancellableRun

/-- Whatever the turns were so far, the batch can be finished. -/
theorem cancellable_finishes (c : Candidates) (payloads : List Bytes) (workers : Nat)
    (beforehand : Bool) (schedule : List Turn) :
    ∃ later, .cancel ∉ later ∧
      (c.cancellableAfter payloads workers beforehand (schedule ++ later)).isDone := by
  refine ⟨Fanout.inOrder none 0 0 (chunks (share payloads workers) payloads),
    Fanout.inOrder_uncancelled 0 0 _, Fanout.done_of_turns _ _ _ fun i w hw => ?_⟩
  have hturns := Fanout.inOrder_turnsLeft none 0 0 i _ w
    (by simpa [fanoutStart, Fanout.start] using hw)
  rw [Nat.zero_add] at hturns
  rw [List.count_append]
  exact Nat.le_add_left_of_le hturns

/-- The batch that runs, with one worker after the other, is one of these. -/
theorem cancellableBatch_run (c : Candidates) (payloads : List Bytes) (workers : Nat)
    (cancellation : Cancellation) :
    ∃ run : c.CancellableRun payloads workers,
      (c.cancellableBatch payloads workers cancellation).1 = run.ending := by
  refine ⟨⟨cancellation.isBeforehand, _, Fanout.inOrder_done _ _ cancellation.index? _, _,
    .refl _⟩, ?_⟩
  rw [cancellableBatch, apply_ite Prod.fst]
  rfl

end Candidates

/-- A batch can be finished from any turns on, and the batch that runs is one way of doing so.
Cancelled at any moment, it has no events and the number of payloads taken up; never cancelled, it
has the events of the sequential run. What one worker found cancelled is cancelled. Each worker
takes up a first part of its chunk, nothing is taken up twice, and nothing at all if the token was
cancelled beforehand. -/
theorem cancelled_or_complete (r : Registry) (program : Option AccountKey) (payloads : List Bytes)
    (workers : Nat) :
    (∀ beforehand schedule, ∃ later, .cancel ∉ later ∧
      ((r.candidates program).cancellableAfter payloads workers beforehand
        (schedule ++ later)).isDone) ∧
    (∀ cancellation, ∃ run : (r.candidates program).CancellableRun payloads workers,
      ((r.candidates program).cancellableBatch payloads workers cancellation).1 = run.ending) ∧
    ∀ run : (r.candidates program).CancellableRun payloads workers,
      (run.Cancels → run.ending = .error ⟨run.taken.length⟩) ∧
      (¬ run.Cancels →
        run.ending = .ok ((r.candidates program).sequentialBatch payloads ⟨false, 0⟩).1.events) ∧
      (run.Observed → run.ending = .error ⟨run.taken.length⟩) ∧
      (run.beforehand = true → run.ending = .error ⟨0⟩) ∧
      run.taken.length ≤ payloads.length ∧
      (run.taken.map (·.2)).Subperm payloads.zipIdx ∧
      ∀ i, Fanout.takenBy i run.taken <+:
        Fanout.chunkAt (Candidates.share payloads workers) i payloads := by
  refine ⟨Candidates.cancellable_finishes _ payloads workers,
    Candidates.cancellableBatch_run _ payloads workers, fun run => ?_⟩
  refine ⟨run.ending_cancelled, run.ending_uncancelled, fun hobserved => ?_, fun hbeforehand => ?_,
    run.taken_length, run.taken_once, fun i => ?_⟩
  · exact run.ending_cancelled (run.cancels_of_observed hobserved)
  · rw [run.ending_cancelled (.inl hbeforehand), run.taken_beforehand hbeforehand]
    rfl
  · exact Fanout.takenBy_chunk _ run.beforehand _ i payloads run.schedule

/-- Three payloads over two workers: cancelled while the first payload is decoded, never cancelled,
and cancelled beforehand. -/
theorem cancelled_or_complete_midway :
    let tag : Tag := ⟨List.replicate 8 1, rfl⟩
    let swap : Decoder := .tagged ⟨"Swap", .zero, tag, fun bs => .ok (.bytes bs)⟩
    let r := Registry.empty.insert "swap" none ⟨.shared 0, swap⟩
    let payloads : List Bytes := [tag.bytes ++ [5], [2], tag.bytes]
    ∃ cut whole idle : (r.candidates none).CancellableRun payloads 2,
      cut.schedule = [.advance 0, .advance 0, .cancel, .advance 0, .advance 0, .advance 0,
        .advance 1] ∧
      cut.Observed ∧ cut.ending = .error ⟨1⟩ ∧
      whole.schedule = List.replicate 5 (.advance 1) ++ List.replicate 9 (.advance 0) ∧
      ¬ whole.Cancels ∧
      whole.ending = .ok [⟨"Swap", .bytes [5], tag.bytes ++ [5], .zero, some tag⟩,
        ⟨"Swap", .bytes [], tag.bytes, .zero, some tag⟩] ∧
      idle.beforehand = true ∧ idle.ending = .error ⟨0⟩ := by
  intro tag swap r payloads
  obtain ⟨-, -, hruns⟩ := cancelled_or_complete r none payloads 2
  let cut : (r.candidates none).CancellableRun payloads 2 :=
    ⟨false, [.advance 0, .advance 0, .cancel, .advance 0, .advance 0, .advance 0, .advance 1],
      by decide +kernel, _, .refl _⟩
  let whole : (r.candidates none).CancellableRun payloads 2 :=
    ⟨false, List.replicate 5 (.advance 1) ++ List.replicate 9 (.advance 0), by decide +kernel, _,
      .refl _⟩
  let idle : (r.candidates none).CancellableRun payloads 2 :=
    ⟨true, [.advance 0, .advance 1], by decide +kernel, _, .refl _⟩
  obtain ⟨-, -, hobserved, -⟩ := hruns cut
  obtain ⟨-, hcomplete, -⟩ := hruns whole
  obtain ⟨-, -, -, hidle, -⟩ := hruns idle
  -- The fifth turn is the second look of the first worker.
  have hcut : cut.Observed :=
    ⟨cut.schedule.take 5, .advance 0, [.advance 1], rfl, by decide +kernel⟩
  have hwhole : ¬ whole.Cancels := by
    rintro (h | h)
    · cases h
    · revert h
      decide +kernel
  refine ⟨cut, whole, idle, rfl, hcut, ?_, rfl, hwhole, ?_, rfl, hidle rfl⟩
  · exact (hobserved hcut).trans (by decide +kernel)
  · exact (hcomplete hwhole).trans (by decide +kernel)

end TaggedPayload
