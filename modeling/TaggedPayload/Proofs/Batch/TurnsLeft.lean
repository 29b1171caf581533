import TaggedPayload.Proofs.Batch.Owed

/-!
# Schedules that end a fan-out

A worker needs four turns for a pending payload and one to stop, fewer when the token is cancelled.
A schedule that gives every worker these turns ends with all workers stopped, in whatever order the
turns come. The schedule in which each worker finishes before the next one starts is of this kind.
-/

set_option autoImplicit false

namespace TaggedPayload.Fanout

/-- How many turns a worker takes at most until it has stopped. -/
def turnsLeft (w : Worker) : Nat :=
  match w.phase, w.pending with
  | .stopped, _ => 0
  | _, [] => 1
  | .look, _ :: rest => 4 * rest.length + 5
  | .takeUp, _ :: rest => 4 * rest.length + 4
  | .decode, _ :: rest => 4 * rest.length + 3
  | .send _, _ :: rest => 4 * rest.length + 2

theorem turnsLeft_look (next : Nat) (pending : List Bytes) :
    turnsLeft ⟨next, pending, .look⟩ = 4 * pending.length + 1 := by
  cases pending <;> rfl

theorem stopped_of_turnsLeft (w : Worker) (h : turnsLeft w = 0) : w.phase = .stopped := by
  obtain ⟨next, pending, phase⟩ := w
  cases phase <;> cases pending <;> simp_all [turnsLeft]

theorem turn_turnsLeft (setup : FanoutSetup) (cancelled : Bool) (w : Worker) :
    turnsLeft (Worker.turn setup cancelled w).1 ≤ turnsLeft w - 1 := by
  obtain ⟨next, pending, phase⟩ := w
  cases pending with
  | nil => cases phase <;> simp [Worker.turn, turnsLeft]
  | cons data rest =>
    cases phase with
    | stopped => simp [Worker.turn, turnsLeft]
    | look => cases cancelled <;> simp [Worker.turn, turnsLeft]
    | takeUp => simp [Worker.turn, turnsLeft]
    | decode => simp [Worker.turn, turnsLeft]
    | send o => simp [Worker.turn, turnsLeft_look]; simp [turnsLeft]

theorem step_turnsLeft (setup : FanoutSetup) (f : Fanout) (t : Turn) (i : Nat) (w : Worker)
    (h : f.workers[i]? = some w) :
    ∃ w', (f.step setup t).workers[i]? = some w' ∧
      turnsLeft w' ≤ turnsLeft w - [t].count (.advance i) := by
  obtain ⟨hi, -⟩ := Array.getElem?_eq_some_iff.mp h
  cases t with
  | cancel => exact ⟨w, h, by simp⟩
  | advance j =>
    cases hv : f.workers[j]? with
    | none =>
      have hij : j ≠ i := by
        rintro rfl
        rw [h] at hv
        cases hv
      rw [step_advance_none setup f j hv]
      exact ⟨w, h, by simp [hij]⟩
    | some v =>
      rw [step_advance setup f j v hv]
      by_cases hij : j = i
      · subst hij
        cases hv.symm.trans h
        refine ⟨(Worker.turn setup f.cancelled w).1, ?_, ?_⟩
        · exact Array.getElem?_setIfInBounds_self_of_lt hi
        · simpa using turn_turnsLeft setup f.cancelled w
      · refine ⟨w, ?_, by simp [hij]⟩
        exact (Array.getElem?_setIfInBounds_ne hij).trans h

theorem run_turnsLeft (setup : FanoutSetup) (ts : List Turn) (f : Fanout) (i : Nat) (w : Worker)
    (h : f.workers[i]? = some w) :
    ∃ w', (f.run setup ts).workers[i]? = some w' ∧
      turnsLeft w' ≤ turnsLeft w - ts.count (.advance i) := by
  induction ts generalizing f w with
  | nil => exact ⟨w, h, by simp⟩
  | cons t ts ih =>
    obtain ⟨v, hv, hleft⟩ := step_turnsLeft setup f t i w h
    obtain ⟨w', hw', hrest⟩ := ih (f.step setup t) v hv
    refine ⟨w', hw', ?_⟩
    simp only [List.count_cons, List.count_nil] at hleft ⊢
    omega

theorem step_size (setup : FanoutSetup) (f : Fanout) (t : Turn) :
    (f.step setup t).workers.size = f.workers.size := by
  cases t with
  | cancel => rfl
  | advance i =>
    cases hw : f.workers[i]? with
    | none => rw [step_advance_none setup f i hw]
    | some w => rw [step_advance setup f i w hw]; simp

theorem run_size (setup : FanoutSetup) (ts : List Turn) (f : Fanout) :
    (f.run setup ts).workers.size = f.workers.size := by
  induction ts generalizing f with
  | nil => rfl
  | cons t ts ih => rw [run, ih, step_size]

/-- No run gets stuck: enough turns for each worker end it, whatever their order. -/
theorem done_of_turns (setup : FanoutSetup) (ts : List Turn) (f : Fanout)
    (h : ∀ i w, f.workers[i]? = some w → turnsLeft w ≤ ts.count (.advance i)) :
    (f.run setup ts).isDone := by
  rw [isDone, Array.all_eq_true]
  intro i hi
  rw [run_size] at hi
  have hw := Array.getElem?_eq_getElem hi
  obtain ⟨w', hw', hleft⟩ := run_turnsLeft setup ts f i _ hw
  have hs := stopped_of_turnsLeft w' (by have := h i _ hw; omega)
  obtain ⟨hi', heq⟩ := Array.getElem?_eq_some_iff.mp hw'
  rw [heq, hs]

/-! ## One worker after another -/

theorem chunkTurns_count (worker i : Nat) (cancelAt : Option Nat) (start length : Nat) :
    (chunkTurns worker cancelAt start length).count (.advance i) =
      if i = worker then 4 * length + 1 else 0 := by
  induction length generalizing start with
  | zero => by_cases h : i = worker <;> simp [chunkTurns, h, Ne.symm]
  | succ n ih =>
    have hc : (if cancelAt = some start then [Turn.cancel] else []).count (.advance i) = 0 := by
      split <;> simp
    simp only [chunkTurns, List.count_append, ih, hc]
    by_cases h : i = worker
    · subst h
      simp
      omega
    · simp [h, Ne.symm h]

/-- Each worker gets its turns, the first of them having the number `worker`. -/
theorem inOrder_turnsLeft (cancelAt : Option Nat) (worker start i : Nat)
    (cs : List (List Bytes)) (w : Worker) (h : (workersFrom start cs)[i]? = some w) :
    turnsLeft w ≤ (inOrder cancelAt worker start cs).count (.advance (worker + i)) := by
  induction cs generalizing worker start i with
  | nil => simp [workersFrom] at h
  | cons c cs ih =>
    rw [inOrder, List.count_append, chunkTurns_count]
    cases i with
    | zero =>
      cases h
      rw [turnsLeft_look, if_pos (Nat.add_zero worker)]
      exact Nat.le_add_right _ _
    | succ i =>
      have hi := ih (worker + 1) _ i h
      rw [show worker + 1 + i = worker + (i + 1) by omega] at hi
      omega

theorem inOrder_done (setup : FanoutSetup) (cancelled : Bool) (cancelAt : Option Nat)
    (cs : List (List Bytes)) :
    ((start cancelled cs).run setup (inOrder cancelAt 0 0 cs)).isDone := by
  apply done_of_turns
  intro i w hw
  have hi : (workersFrom 0 cs)[i]? = some w := by simpa [start] using hw
  simpa using inOrder_turnsLeft cancelAt 0 0 i cs w hi

theorem inOrder_uncancelled (worker start : Nat) (cs : List (List Bytes)) :
    .cancel ∉ inOrder none worker start cs := by
  have hchunk : ∀ length w s, .cancel ∉ chunkTurns w none s length := by
    intro length
    induction length with
    | zero => simp [chunkTurns]
    | succ n ih => simp [chunkTurns, ih]
  induction cs generalizing worker start with
  | nil => simp [inOrder]
  | cons c cs ih => simp [inOrder, hchunk, ih]

end TaggedPayload.Fanout
