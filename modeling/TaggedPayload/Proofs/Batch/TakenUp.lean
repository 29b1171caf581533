import Mathlib.Data.List.Perm.Subperm
import TaggedPayload.Proofs.Batch.Owed

/-!
# What the workers of a fan-out take up

A trace of a run: which worker took up which payload. Together with what a worker may still take
up, its part of the trace is always its chunk, so it takes up a first part of its chunk and nothing
twice. The count of the machine is the length of the trace. A cancelled token ends the trace: each
worker that was about to take a payload up still does, and no other one.
-/

set_option autoImplicit false

namespace TaggedPayload.Fanout

def takes? (w : Worker) : Option (Bytes × Nat) :=
  match w.phase, w.pending with
  | .takeUp, data :: _ => some (data, w.next)
  | _, _ => none

def untaken (w : Worker) : List (Bytes × Nat) :=
  match w.phase with
  | .decode | .send _ => w.pending.tail.zipIdx (w.next + 1)
  | _ => w.pending.zipIdx w.next

/-- A payload with its index, behind the number of the worker that took it up. -/
abbrev Taken := Nat × Bytes × Nat

def stepTaken (f : Fanout) : Turn → List Taken
  | .cancel => []
  | .advance i => ((f.workers[i]?.bind takes?).map (i, ·)).toList

def taken (setup : FanoutSetup) (f : Fanout) : List Turn → List Taken
  | [] => []
  | t :: ts => f.stepTaken t ++ (f.step setup t).taken setup ts

def takenBy (i : Nat) (trace : List Taken) : List (Bytes × Nat) :=
  (trace.filter (·.1 == i)).map (·.2)

/-- What the worker with a number has not taken up; a number without a worker has nothing. -/
def untakenAt (f : Fanout) (i : Nat) : List (Bytes × Nat) :=
  (f.workers[i]?.map untaken).getD []

theorem takenBy_append (i : Nat) (xs ys : List Taken) :
    takenBy i (xs ++ ys) = takenBy i xs ++ takenBy i ys := by
  rw [takenBy, List.filter_append, List.map_append, takenBy, takenBy]

/-! ## One turn -/

theorem turn_takes (setup : FanoutSetup) (cancelled : Bool) (w : Worker) :
    (Worker.turn setup cancelled w).2.1 = (takes? w).toList.length := by
  obtain ⟨next, pending, phase⟩ := w
  cases phase <;> cases pending <;> rfl

theorem turn_untaken (setup : FanoutSetup) (cancelled : Bool) (w : Worker) :
    (takes? w).toList ++ untaken (Worker.turn setup cancelled w).1 = untaken w := by
  obtain ⟨next, pending, phase⟩ := w
  cases pending with
  | nil => cases phase <;> rfl
  | cons data rest =>
    cases phase with
    | stopped => rfl
    | look => cases cancelled <;> rfl
    | takeUp => rfl
    | decode => rfl
    | send o => rfl

/-! ## One step of the machine -/

theorem stepTaken_advance (f : Fanout) (i : Nat) (w : Worker) (h : f.workers[i]? = some w) :
    f.stepTaken (.advance i) = (takes? w).toList.map (i, ·) := by
  rw [stepTaken, h, Option.bind_some]
  cases takes? w <;> rfl

theorem stepTaken_none (f : Fanout) (i : Nat) (h : f.workers[i]? = none) :
    f.stepTaken (.advance i) = [] := by
  rw [stepTaken, h]
  rfl

theorem step_processed (setup : FanoutSetup) (f : Fanout) (t : Turn) :
    (f.step setup t).processed = f.processed + (f.stepTaken t).length := by
  cases t with
  | cancel => rfl
  | advance i =>
    cases hw : f.workers[i]? with
    | none =>
      rw [step_advance_none setup f i hw, stepTaken_none f i hw]
      rfl
    | some w =>
      rw [step_advance setup f i w hw, stepTaken_advance f i w hw, List.length_map]
      simp only [turn_takes]

/-- What a step takes up is the first of what its worker had not taken up; other workers keep what
they have. -/
theorem step_untakenAt (setup : FanoutSetup) (f : Fanout) (t : Turn) (i : Nat) :
    takenBy i (f.stepTaken t) ++ (f.step setup t).untakenAt i = f.untakenAt i := by
  cases t with
  | cancel => rfl
  | advance j =>
    cases hv : f.workers[j]? with
    | none =>
      rw [step_advance_none setup f j hv, stepTaken_none f j hv]
      rfl
    | some v =>
      rw [step_advance setup f j v hv, stepTaken_advance f j v hv]
      by_cases hij : j = i
      · subst hij
        obtain ⟨hj, -⟩ := Array.getElem?_eq_some_iff.mp hv
        have hown : takenBy j ((takes? v).toList.map (j, ·)) = (takes? v).toList := by
          cases takes? v <;> simp [takenBy]
        rw [hown, untakenAt, Array.getElem?_setIfInBounds_self_of_lt hj, untakenAt, hv]
        exact turn_untaken setup f.cancelled v
      · have hother : takenBy i ((takes? v).toList.map (j, ·)) = [] := by
          cases takes? v <;> simp [takenBy, hij]
        rw [hother, untakenAt, Array.getElem?_setIfInBounds_ne hij]
        rfl

theorem step_taken (setup : FanoutSetup) (share : Worker → List (Bytes × Nat)) (f : Fanout)
    (t : Turn)
    (h : ∀ w, (takes? w).toList ++ share (Worker.turn setup f.cancelled w).1 = share w) :
    ((f.stepTaken t).map (·.2) ++ (f.step setup t).workers.toList.flatMap share).Perm
      (f.workers.toList.flatMap share) := by
  cases t with
  | cancel => exact .refl _
  | advance i =>
    cases hw : f.workers[i]? with
    | none =>
      rw [step_advance_none setup f i hw, stepTaken_none f i hw]
      exact .refl _
    | some w =>
      rw [stepTaken_advance f i w hw, List.map_map, Function.comp_def, List.map_id']
      exact advance_share setup share _ f i w hw (h w)

/-! ## Whole runs -/

theorem run_processed (setup : FanoutSetup) (ts : List Turn) (f : Fanout) :
    (f.run setup ts).processed = f.processed + (f.taken setup ts).length := by
  induction ts generalizing f with
  | nil => rfl
  | cons t ts ih =>
    rw [run, ih, step_processed, taken, List.length_append, Nat.add_assoc]

theorem run_untakenAt (setup : FanoutSetup) (i : Nat) (ts : List Turn) (f : Fanout) :
    takenBy i (f.taken setup ts) ++ (f.run setup ts).untakenAt i = f.untakenAt i := by
  induction ts generalizing f with
  | nil => rfl
  | cons t ts ih => rw [run, taken, takenBy_append, List.append_assoc, ih, step_untakenAt]

theorem run_taken (setup : FanoutSetup) (share : Worker → List (Bytes × Nat)) (ts : List Turn)
    (f : Fanout)
    (h : ∀ cancelled w, (f.cancelled = true → cancelled = true) →
      (takes? w).toList ++ share (Worker.turn setup cancelled w).1 = share w) :
    ((f.taken setup ts).map (·.2) ++ (f.run setup ts).workers.toList.flatMap share).Perm
      (f.workers.toList.flatMap share) := by
  induction ts generalizing f with
  | nil => exact .refl _
  | cons t ts ih =>
    have hstep := step_taken setup share f t fun w => h f.cancelled w id
    -- The token stays cancelled, so what holds of turns from now on holds of turns later.
    have hrest := ih (f.step setup t) fun cancelled w hc => h cancelled w fun hf =>
      hc (by rw [step_cancelled, hf, Bool.true_or])
    rw [run, taken, List.map_append, List.append_assoc]
    exact (hrest.append_left _).trans hstep

theorem run_untaken (setup : FanoutSetup) (ts : List Turn) (f : Fanout) :
    ((f.taken setup ts).map (·.2)).Subperm (f.workers.toList.flatMap untaken) :=
  (List.sublist_append_left _ _).subperm.trans
    (run_taken setup untaken ts f fun cancelled w _ => turn_untaken setup cancelled w).subperm

theorem turn_cancelled_takes (setup : FanoutSetup) (w : Worker) :
    takes? (Worker.turn setup true w).1 = none := by
  obtain ⟨next, pending, phase⟩ := w
  cases phase <;> cases pending <;> rfl

/-- Once the token is cancelled, only what a worker was about to take up is still taken up. -/
theorem taken_cancelled (setup : FanoutSetup) (ts : List Turn) (f : Fanout)
    (h : f.cancelled = true) :
    ((f.taken setup ts).map (·.2)).Subperm
      (f.workers.toList.flatMap fun w => (takes? w).toList) := by
  refine (List.sublist_append_left _ _).subperm.trans
    (run_taken setup (fun w => (takes? w).toList) ts f fun cancelled w hc => ?_).subperm
  simp only [hc h, turn_cancelled_takes, Option.toList_none, List.append_nil]

/-! ## From the first turn on -/

def chunkAt (size i : Nat) (ps : List Bytes) : List (Bytes × Nat) :=
  ((ps.drop (i * size)).take size).zipIdx (i * size)

theorem workersFrom_chunkAt (size i start : Nat) (ps : List Bytes) :
    ((workersFrom start (chunks size ps))[i]?.map untaken).getD [] =
      ((ps.drop (i * size)).take size).zipIdx (start + i * size) := by
  induction ps using chunks.induct size generalizing i start with
  | case1 ps h =>
    rw [chunks, dif_pos h]
    rcases h with rfl | rfl
    · simp [workersFrom]
    · simp [workersFrom]
  | case2 ps h ih =>
    rw [chunks, dif_neg h, workersFrom]
    cases i with
    | zero =>
      simp only [List.getElem?_cons_zero, Option.map_some, Option.getD_some, Nat.zero_mul,
        List.drop_zero, Nat.add_zero]
      rfl
    | succ i =>
      rw [List.getElem?_cons_succ, ih, List.drop_drop, Nat.succ_mul, Nat.add_comm size]
      -- Only behind a whole chunk there is another one.
      rcases Nat.le_total size ps.length with hfull | hshort
      · rw [List.length_take, Nat.min_eq_left hfull, Nat.add_assoc start, Nat.add_comm size]
      · rw [List.drop_eq_nil_of_le (by omega)]
        simp

theorem workersFrom_untaken (start : Nat) (cs : List (List Bytes)) :
    (workersFrom start cs).flatMap untaken = cs.flatten.zipIdx start := by
  induction cs generalizing start with
  | nil => rfl
  | cons c cs ih =>
    rw [workersFrom, List.flatMap_cons, ih, List.flatten_cons, List.zipIdx_append]
    rfl

/-- A worker takes up a first part of its chunk, in order. -/
theorem takenBy_chunk (setup : FanoutSetup) (cancelled : Bool) (size i : Nat) (ps : List Bytes)
    (ts : List Turn) :
    takenBy i ((start cancelled (chunks size ps)).taken setup ts) <+: chunkAt size i ps := by
  have hstart : (start cancelled (chunks size ps)).untakenAt i = chunkAt size i ps := by
    have hchunk := workersFrom_chunkAt size i 0 ps
    rwa [Nat.zero_add, ← List.getElem?_toArray] at hchunk
  rw [← hstart, ← run_untakenAt setup i ts]
  exact List.prefix_append _ _

/-- No payload is taken up twice. -/
theorem taken_once (setup : FanoutSetup) (cancelled : Bool) (cs : List (List Bytes))
    (ts : List Turn) :
    (((start cancelled cs).taken setup ts).map (·.2)).Subperm cs.flatten.zipIdx := by
  have h := run_untaken setup ts (start cancelled cs)
  rwa [start, List.toList_toArray, workersFrom_untaken] at h

/-- A token that is cancelled before the first turn keeps every worker from taking anything up. -/
theorem taken_beforehand (setup : FanoutSetup) (cs : List (List Bytes)) (ts : List Turn) :
    (start true cs).taken setup ts = [] := by
  have hlook : ((start true cs).workers.toList.flatMap fun w => (takes? w).toList) = [] := by
    rw [List.flatMap_eq_nil_iff]
    intro w hw
    rw [takes?, workersFrom_look 0 cs w hw]
    rfl
  have h := taken_cancelled setup ts (start true cs) rfl
  rw [hlook] at h
  exact List.map_eq_nil_iff.mp (List.subperm_nil.mp h)

end TaggedPayload.Fanout
