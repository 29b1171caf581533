import TaggedPayload.Proofs.Batch.AnyOrder

/-!
# Shares of a batch

Each worker gets one chunk, all of the same size except perhaps the last one. Rounding the size up
leaves no payload without a worker, and there may be workers without a payload, but never the other
way round. A chunk's number times the size is the index of its first payload.
-/

set_option autoImplicit false

namespace TaggedPayload.Fanout

/-! ## Workers and sizes -/

theorem workerCount_le (requested n : Nat) (h : 0 < n) : workerCount requested n ≤ n := by
  unfold workerCount
  omega

theorem chunkSize_mul (n workers : Nat) (h : 0 < workers) :
    n ≤ chunkSize n workers * workers ∧ chunkSize n workers * workers < n + workers := by
  have hdiv := Nat.div_add_mod (n + workers - 1) workers
  have hmod := Nat.mod_lt (n + workers - 1) h
  rw [Nat.mul_comm] at hdiv
  unfold chunkSize
  omega

theorem chunkSize_range (n workers : Nat) (hn : 0 < n) (h : 0 < workers) :
    1 ≤ chunkSize n workers ∧ chunkSize n workers ≤ n := by
  obtain ⟨hlow, hhigh⟩ := chunkSize_mul n workers h
  constructor
  · by_contra hzero
    have hsize : chunkSize n workers = 0 := by omega
    rw [hsize] at hlow
    omega
  · by_contra hlarge
    have hmore := Nat.mul_le_mul_right workers (Nat.lt_of_not_le hlarge)
    have hwhole := Nat.le_mul_of_pos_right n h
    rw [Nat.succ_mul] at hmore
    omega

/-! ## Chunks -/

variable {α : Type}

theorem chunks_nil (size : Nat) : chunks size ([] : List α) = [] := by
  rw [chunks, dif_pos (.inr rfl)]

/-- All chunks but the last one are full. -/
theorem length_chunks (size : Nat) (xs : List α) (pos : 0 < size) :
    (chunks size xs).length * size < xs.length + size := by
  induction xs using chunks.induct size with
  | case1 xs h =>
    rw [chunks, dif_pos h, List.length_nil]
    omega
  | case2 xs h ih =>
    rw [chunks, dif_neg h, List.length_cons, Nat.succ_mul]
    have hxs : 0 < xs.length := List.length_pos_iff.mpr fun hnil => h (.inr hnil)
    by_cases hfull : size ≤ xs.length
    · rw [List.length_drop] at ih
      omega
    · rw [List.drop_eq_nil_of_le (by omega), chunks_nil, List.length_nil]
      omega

theorem chunks_le_workers (workers : Nat) (xs : List α) (h : 0 < workers) (hxs : xs ≠ []) :
    (chunks (chunkSize xs.length workers) xs).length ≤ workers := by
  have hn : 0 < xs.length := List.length_pos_iff.mpr hxs
  have hpos := (chunkSize_range xs.length workers hn h).1
  have hlow := (chunkSize_mul xs.length workers h).1
  have hcount := length_chunks (chunkSize xs.length workers) xs hpos
  by_contra hmany
  have := Nat.mul_le_mul_right (chunkSize xs.length workers) (Nat.lt_of_not_le hmany)
  rw [Nat.succ_mul, Nat.mul_comm workers] at this
  omega

/-- Chunks that are counted from `k` on start at multiples of the size. -/
theorem chunks_indices (size k : Nat) (xs : List α) (pos : 0 < size) :
    ((chunks size xs).zipIdx k).flatMap (fun c => (List.range c.1.length).map (c.2 * size + ·)) =
      List.range' (k * size) xs.length := by
  induction xs using chunks.induct size generalizing k with
  | case1 xs h =>
    obtain rfl := h.resolve_left (by omega)
    rw [chunks_nil]
    rfl
  | case2 xs h ih =>
    rw [chunks, dif_neg h, List.zipIdx_cons, List.flatMap_cons, ih, ← List.range'_eq_map_range,
      List.length_take, List.length_drop, Nat.succ_mul]
    by_cases hfull : size ≤ xs.length
    · rw [Nat.min_eq_left hfull, List.range'_append_1, Nat.add_sub_cancel' hfull]
    · rw [Nat.min_eq_right (by omega), Nat.sub_eq_zero_of_le (by omega), List.range'_zero,
        List.append_nil]

theorem workersFrom_chunks (size k : Nat) (ps : List Bytes) (pos : 0 < size) :
    workersFrom (k * size) (chunks size ps) =
      ((chunks size ps).zipIdx k).map fun c => ⟨c.2 * size, c.1, .look⟩ := by
  induction ps using chunks.induct size generalizing k with
  | case1 ps h =>
    obtain rfl := h.resolve_left (by omega)
    rw [chunks_nil]
    rfl
  | case2 ps h ih =>
    rw [chunks, dif_neg h, List.zipIdx_cons, List.map_cons, ← ih, workersFrom]
    by_cases hfull : size ≤ ps.length
    · rw [List.length_take, Nat.min_eq_left hfull, ← Nat.succ_mul]
    · rw [List.drop_eq_nil_of_le (by omega), chunks_nil]
      rfl

theorem mem_chunks_ne_nil (size : Nat) (xs : List α) : ∀ c ∈ chunks size xs, c ≠ [] := by
  induction xs using chunks.induct size with
  | case1 xs h =>
    rw [chunks, dif_pos h]
    simp
  | case2 xs h ih =>
    rw [chunks, dif_neg h, List.forall_mem_cons]
    rw [not_or] at h
    exact ⟨by simp [h.1, h.2], ih⟩

end TaggedPayload.Fanout
