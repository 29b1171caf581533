import TaggedPayload.Batch.Fanout

/-!
# What the workers of a fan-out still owe

A worker owes the messages of its pending payloads. No turn of any worker changes the messages in
the channel together with those that are owed, up to their order, and cancelling the token does not
either. So when all workers have stopped and the token was never cancelled, the channel holds the
messages of the whole batch, whatever the schedule was. How the messages become a result is not a
matter of this module.
-/

set_option autoImplicit false

namespace TaggedPayload.Fanout

/-- The outcome of a payload, if a worker sends it. -/
def kept? (setup : FanoutSetup) (data : Bytes) : Option Outcome :=
  if (setup.decode data).isOk || setup.collectErrors then some (setup.decode data) else none

def messages (setup : FanoutSetup) : (start : Nat) → List Bytes → List (Nat × Outcome)
  | _, [] => []
  | i, data :: rest => ((kept? setup data).map (i, ·)).toList ++ messages setup (i + 1) rest

def owed (setup : FanoutSetup) (w : Worker) : List (Nat × Outcome) :=
  messages setup w.next w.pending

/-- An outcome that waits to be sent is that of the first pending payload. -/
def Sound (setup : FanoutSetup) (w : Worker) : Prop :=
  ∀ o data rest, w.phase = .send o → w.pending = data :: rest → o = setup.decode data

/-- What every turn keeps, for a batch with the messages `ms`. -/
structure Conserved (setup : FanoutSetup) (ms : List (Nat × Outcome)) (f : Fanout) : Prop where
  perm : (f.channel ++ f.workers.toList.flatMap (owed setup)).Perm ms
  sound : ∀ w ∈ f.workers.toList, Sound setup w
  /-- Only a cancelled token stops a worker before the end of its chunk. -/
  finished : f.cancelled = false → ∀ w ∈ f.workers.toList, w.phase = .stopped → w.pending = []

/-! ## One turn -/

theorem turn_sound (setup : FanoutSetup) (cancelled : Bool) (w : Worker) (h : Sound setup w) :
    Sound setup (Worker.turn setup cancelled w).1 := by
  obtain ⟨next, pending, phase⟩ := w
  cases pending with
  | nil => cases phase <;> simp [Worker.turn, Sound]
  | cons data rest =>
    cases phase with
    | stopped => exact h
    | look => cases cancelled <;> simp [Worker.turn, Sound]
    | takeUp => simp [Worker.turn, Sound]
    | decode =>
      intro o d ds ho hd
      simp only [Worker.turn] at ho hd
      cases ho
      cases hd
      rfl
    | send o => simp [Worker.turn, Sound]

/-- A turn moves what it sends out of what the worker owes. -/
theorem turn_owed (setup : FanoutSetup) (cancelled : Bool) (w : Worker) (h : Sound setup w) :
    (Worker.turn setup cancelled w).2.2.toList ++ owed setup (Worker.turn setup cancelled w).1 =
      owed setup w := by
  obtain ⟨next, pending, phase⟩ := w
  cases pending with
  | nil => cases phase <;> rfl
  | cons data rest =>
    cases phase with
    | stopped => rfl
    | look => rfl
    | takeUp => rfl
    | decode => rfl
    | send o =>
      have ho : o = setup.decode data := h o data rest rfl rfl
      subst ho
      simp only [Worker.turn, owed, messages, kept?]
      split <;> rfl

theorem turn_finished (setup : FanoutSetup) (w : Worker)
    (h : w.phase = .stopped → w.pending = []) :
    (Worker.turn setup false w).1.phase = .stopped → (Worker.turn setup false w).1.pending = [] := by
  obtain ⟨next, pending, phase⟩ := w
  cases pending with
  | nil => cases phase <;> simp [Worker.turn]
  | cons data rest => cases phase <;> simp_all [Worker.turn]

/-! ## One step of the machine -/

theorem step_advance_none (setup : FanoutSetup) (f : Fanout) (i : Nat)
    (h : f.workers[i]? = none) : f.step setup (.advance i) = f := by
  simp only [step, h]

theorem step_advance (setup : FanoutSetup) (f : Fanout) (i : Nat) (w : Worker)
    (h : f.workers[i]? = some w) :
    f.step setup (.advance i) =
      { workers := f.workers.setIfInBounds i (Worker.turn setup f.cancelled w).1
        cancelled := f.cancelled
        processed := f.processed + (Worker.turn setup f.cancelled w).2.1
        channel := (Worker.turn setup f.cancelled w).2.2.toList ++ f.channel } := by
  simp only [step, h]

/-- The workers around one of them, which a turn changes. -/
theorem workers_split (ws : Array Worker) (i : Nat) (w : Worker) (h : ws[i]? = some w) :
    ∃ before after, ws.toList = before ++ w :: after ∧
      ∀ w', (ws.setIfInBounds i w').toList = before ++ w' :: after := by
  obtain ⟨hi, hw⟩ := Array.getElem?_eq_some_iff.mp h
  have hl : i < ws.toList.length := by simpa using hi
  refine ⟨ws.toList.take i, ws.toList.drop (i + 1), ?_, fun w' => ?_⟩
  · rw [← hw, ← Array.getElem_toList, ← List.drop_eq_getElem_cons hl, List.take_append_drop]
  · rw [Array.toList_setIfInBounds, List.set_eq_take_append_cons_drop, if_pos hl]

/-- What every turn of a worker keeps holds of all workers after a step. -/
theorem step_workers (setup : FanoutSetup) (P : Worker → Prop) (f : Fanout) (t : Turn)
    (hP : ∀ w, P w → P (Worker.turn setup f.cancelled w).1)
    (h : ∀ w ∈ f.workers.toList, P w) : ∀ w ∈ (f.step setup t).workers.toList, P w := by
  cases t with
  | cancel => exact h
  | advance i =>
    cases hw : f.workers[i]? with
    | none => rwa [step_advance_none setup f i hw]
    | some w =>
      obtain ⟨before, after, hws, hset⟩ := workers_split f.workers i w hw
      rw [step_advance setup f i w hw]
      intro v hv
      rw [hset] at hv
      rcases List.mem_append.mp hv with hb | hv
      · exact h v (by rw [hws]; exact List.mem_append_left _ hb)
      · rcases List.mem_cons.mp hv with rfl | ha
        · exact hP w (h w (by rw [hws]; simp))
        · exact h v (by rw [hws]; simp [ha])

/-- What a turn moves out of its worker's share, a step moves out of the shares of all workers. -/
theorem advance_share {α : Type} (setup : FanoutSetup) (share : Worker → List α) (moved : List α)
    (f : Fanout) (i : Nat) (w : Worker) (hw : f.workers[i]? = some w)
    (h : moved ++ share (Worker.turn setup f.cancelled w).1 = share w) :
    (moved ++ (f.step setup (.advance i)).workers.toList.flatMap share).Perm
      (f.workers.toList.flatMap share) := by
  obtain ⟨before, after, hws, hset⟩ := workers_split f.workers i w hw
  rw [step_advance setup f i w hw, hws]
  simp only [hset, List.flatMap_append, List.flatMap_cons, ← h, List.append_assoc]
  exact List.perm_append_comm_assoc _ _ _

theorem step_perm (setup : FanoutSetup) (f : Fanout) (t : Turn)
    (h : ∀ w ∈ f.workers.toList, Sound setup w) :
    ((f.step setup t).channel ++ (f.step setup t).workers.toList.flatMap (owed setup)).Perm
      (f.channel ++ f.workers.toList.flatMap (owed setup)) := by
  cases t with
  | cancel => exact .refl _
  | advance i =>
    cases hw : f.workers[i]? with
    | none => rw [step_advance_none setup f i hw]
    | some w =>
      have hmem : w ∈ f.workers.toList :=
        Array.mem_toList_iff.mpr (Array.mem_of_getElem? hw)
      have hshare := advance_share setup (owed setup) _ f i w hw
        (turn_owed setup f.cancelled w (h w hmem))
      rw [step_advance setup f i w hw] at hshare ⊢
      -- What was sent is now in front of the channel instead of in the worker's share.
      rw [List.append_assoc]
      exact (List.perm_append_comm_assoc _ _ _).trans (hshare.append_left _)

theorem step_cancelled (setup : FanoutSetup) (f : Fanout) (t : Turn) :
    (f.step setup t).cancelled = (f.cancelled || t == .cancel) := by
  cases t with
  | cancel => simp [step]
  | advance i =>
    cases hw : f.workers[i]? with
    | none => rw [step_advance_none setup f i hw]; simp
    | some w => rw [step_advance setup f i w hw]; simp

theorem step_conserved (setup : FanoutSetup) (ms : List (Nat × Outcome)) (f : Fanout) (t : Turn)
    (h : Conserved setup ms f) : Conserved setup ms (f.step setup t) := by
  refine ⟨(step_perm setup f t h.sound).trans h.perm,
    step_workers setup (Sound setup) f t (turn_sound setup f.cancelled) h.sound, fun hc => ?_⟩
  rw [step_cancelled, Bool.or_eq_false_iff] at hc
  refine step_workers setup _ f t (fun w hw => ?_) (h.finished hc.1)
  rw [hc.1]
  exact turn_finished setup w hw

/-! ## Whole runs -/

theorem run_conserved (setup : FanoutSetup) (ms : List (Nat × Outcome)) (ts : List Turn)
    (f : Fanout) (h : Conserved setup ms f) : Conserved setup ms (f.run setup ts) := by
  induction ts generalizing f with
  | nil => exact h
  | cons t ts ih => exact ih _ (step_conserved setup ms f t h)

theorem run_cancelled (setup : FanoutSetup) (ts : List Turn) (f : Fanout) :
    (f.run setup ts).cancelled = true ↔ f.cancelled = true ∨ .cancel ∈ ts := by
  induction ts generalizing f with
  | nil => simp [run]
  | cons t ts ih =>
    rw [run, ih, step_cancelled, Bool.or_eq_true, beq_iff_eq, List.mem_cons, or_assoc,
      eq_comm (a := t)]

theorem messages_append (setup : FanoutSetup) (start : Nat) (xs ys : List Bytes) :
    messages setup start (xs ++ ys) =
      messages setup start xs ++ messages setup (start + xs.length) ys := by
  induction xs generalizing start with
  | nil => rfl
  | cons x xs ih =>
    rw [List.cons_append, messages, messages, ih, List.append_assoc, List.length_cons,
      Nat.add_assoc, Nat.add_comm 1]

/-- Before the first turn, the workers owe the messages of all chunks. -/
theorem workersFrom_owed (setup : FanoutSetup) (start : Nat) (cs : List (List Bytes)) :
    (workersFrom start cs).flatMap (owed setup) = messages setup start cs.flatten := by
  induction cs generalizing start with
  | nil => rfl
  | cons c cs ih =>
    rw [workersFrom, List.flatMap_cons, ih, List.flatten_cons, messages_append]
    rfl

theorem workersFrom_look (start : Nat) (cs : List (List Bytes)) :
    ∀ w ∈ workersFrom start cs, w.phase = .look := by
  induction cs generalizing start with
  | nil => simp [workersFrom]
  | cons c cs ih =>
    intro w hw
    rcases List.mem_cons.mp hw with rfl | hw
    · rfl
    · exact ih _ w hw

theorem start_conserved (setup : FanoutSetup) (cancelled : Bool) (cs : List (List Bytes)) :
    Conserved setup (messages setup 0 cs.flatten) (start cancelled cs) := by
  have hlook := workersFrom_look 0 cs
  refine ⟨?_, ?_, ?_⟩
  · simp [start, workersFrom_owed]
  · intro w hw o data rest ho
    rw [hlook w hw] at ho
    cases ho
  · intro _ w hw hs
    rw [hlook w hw] at hs
    cases hs

/-- When all workers have stopped and the token was never cancelled, every message is sent. -/
theorem done_channel (setup : FanoutSetup) (ms : List (Nat × Outcome)) (f : Fanout)
    (h : Conserved setup ms f) (hc : f.cancelled = false) (hd : f.isDone) :
    f.channel.Perm ms := by
  have howed : f.workers.toList.flatMap (owed setup) = [] := by
    rw [List.flatMap_eq_nil_iff]
    intro w hw
    have hs : w.phase = .stopped := by
      have := Array.all_eq_true_iff_forall_mem.mp hd w (Array.mem_toList_iff.mp hw)
      revert this
      cases w.phase <;> simp
    rw [owed, h.finished hc w hw hs]
    rfl
  have hp := h.perm
  rwa [howed, List.append_nil] at hp

end TaggedPayload.Fanout
