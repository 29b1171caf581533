import TaggedPayload.Binary.Bytes

/-!
# Results and their places

What a function finds for some payloads of a list, each result with the place of its payload. Places
increase along the results, and a result stands at a place exactly if the function finds it for the
payload there. Where the results are counted, the list splits at the payload of any one of them.
-/

set_option autoImplicit false

namespace TaggedPayload

variable {β : Type}

/-- The results for payloads, the first of which has the place `start`. -/
def placedFrom (start : Nat) (f : Bytes → Option β) (ps : List Bytes) : List (Nat × β) :=
  (ps.zipIdx start).filterMap fun p => (f p.1).map fun y => (p.2, y)

@[simp] theorem placedFrom_nil (start : Nat) (f : Bytes → Option β) : placedFrom start f [] = [] :=
  rfl

theorem placedFrom_cons (start : Nat) (f : Bytes → Option β) (data : Bytes) (rest : List Bytes) :
    placedFrom start f (data :: rest) =
      ((f data).map fun y => (start, y)).toList ++ placedFrom (start + 1) f rest := by
  rw [placedFrom, List.zipIdx_cons, List.filterMap_cons]
  cases f data <;> rfl

theorem placedFrom_append (start : Nat) (f : Bytes → Option β) (ps qs : List Bytes) :
    placedFrom start f (ps ++ qs) =
      placedFrom start f ps ++ placedFrom (start + ps.length) f qs := by
  rw [placedFrom, List.zipIdx_append, List.filterMap_append]
  rfl

theorem placedFrom_results (start : Nat) (f : Bytes → Option β) (ps : List Bytes) :
    (placedFrom start f ps).map (·.2) = ps.filterMap f := by
  induction ps generalizing start with
  | nil => rfl
  | cons data rest ih =>
    rw [placedFrom_cons, List.map_append, ih, List.filterMap_cons]
    cases f data <;> rfl

theorem mem_placedFrom (start : Nat) (f : Bytes → Option β) (ps : List Bytes) (p : Nat × β) :
    p ∈ placedFrom start f ps ↔
      start ≤ p.1 ∧ ∃ data, ps[p.1 - start]? = some data ∧ f data = some p.2 := by
  simp only [placedFrom, List.mem_filterMap, Option.map_eq_some_iff]
  constructor
  · rintro ⟨⟨data, i⟩, hmem, y, hy, rfl⟩
    obtain ⟨hi, hdata⟩ := List.mem_zipIdx_iff_le_and_getElem?_sub.mp hmem
    exact ⟨hi, data, hdata, hy⟩
  · rintro ⟨hi, data, hdata, hy⟩
    exact ⟨(data, p.1), List.mem_zipIdx_iff_le_and_getElem?_sub.mpr ⟨hi, hdata⟩, p.2, hy, rfl⟩

theorem mem_placed (f : Bytes → Option β) (ps : List Bytes) (p : Nat × β) :
    p ∈ placedFrom 0 f ps ↔ ∃ data, ps[p.1]? = some data ∧ f data = some p.2 := by
  simp [mem_placedFrom]

theorem placedFrom_increasing (start : Nat) (f : Bytes → Option β) (ps : List Bytes) :
    ((placedFrom start f ps).map (·.1)).Pairwise (· < ·) := by
  induction ps generalizing start with
  | nil => exact .nil
  | cons data rest ih =>
    rw [placedFrom_cons]
    cases f data with
    | none => exact ih (start + 1)
    | some y =>
      refine List.pairwise_cons.mpr ⟨?_, ih (start + 1)⟩
      intro i hi
      obtain ⟨p, hp, rfl⟩ := List.mem_map.mp hi
      exact ((mem_placedFrom (start + 1) f rest p).mp hp).1

/-- The payload of the result behind the first `n`. -/
theorem placedFrom_split (start : Nat) (f : Bytes → Option β) (ps : List Bytes) (n : Nat)
    (h : n < (placedFrom start f ps).length) :
    ∃ front data rest y, ps = front ++ data :: rest ∧ f data = some y ∧
      (placedFrom start f front).length = n := by
  induction ps generalizing start n with
  | nil => exact absurd h (Nat.not_lt_zero n)
  | cons data rest ih =>
    rw [placedFrom_cons, List.length_append] at h
    cases hf : f data with
    | none =>
      rw [hf] at h
      obtain ⟨front, d, back, y, rfl, hy, hn⟩ := ih (start + 1) n (by simpa using h)
      refine ⟨data :: front, d, back, y, rfl, hy, ?_⟩
      rw [placedFrom_cons, hf]
      exact hn
    | some x =>
      cases n with
      | zero => exact ⟨[], data, rest, x, rfl, hf, rfl⟩
      | succ n =>
        rw [hf] at h
        have hrest : n < (placedFrom (start + 1) f rest).length := by
          simp only [Option.map_some, Option.toList_some, List.length_singleton] at h
          omega
        obtain ⟨front, d, back, y, rfl, hy, hn⟩ := ih (start + 1) n hrest
        refine ⟨data :: front, d, back, y, rfl, hy, ?_⟩
        rw [placedFrom_cons, hf, List.length_append, hn]
        exact Nat.add_comm 1 n

end TaggedPayload
