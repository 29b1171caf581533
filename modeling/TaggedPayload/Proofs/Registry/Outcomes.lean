import TaggedPayload.Batch.Item
import TaggedPayload.Proofs.Decoder.SplitBuffer

/-!
# Outcomes of the decoders that accept a payload

A dispatch asks decoders in order, and of those that accept the payload only the outcomes count.
Strict dispatch has the first outcome. Best-effort dispatch has the first event, and the last error
where no decoder succeeds. So two dispatches are compared by comparing two lists of outcomes.
-/

set_option autoImplicit false

namespace TaggedPayload

def outcomes (data : Bytes) (hs : List Handle) : List (Except DecodeError Event) :=
  (hs.filter fun h => h.decoder.accepts data).map fun h => h.decoder.decode data

@[simp] theorem outcomes_nil (data : Bytes) : outcomes data [] = [] := rfl

@[simp] theorem outcomes_append (data : Bytes) (gs hs : List Handle) :
    outcomes data (gs ++ hs) = outcomes data gs ++ outcomes data hs := by
  simp [outcomes]

theorem outcomes_cons_accepts (data : Bytes) (h : Handle) (hs : List Handle)
    (hh : h.decoder.accepts data = true) :
    outcomes data (h :: hs) = h.decoder.decode data :: outcomes data hs := by
  simp [outcomes, hh]

theorem outcomes_cons_refuses (data : Bytes) (h : Handle) (hs : List Handle)
    (hh : ¬h.decoder.accepts data = true) : outcomes data (h :: hs) = outcomes data hs := by
  simp [outcomes, hh]

theorem mem_outcomes (data : Bytes) (hs : List Handle) (o : Except DecodeError Event) :
    o ∈ outcomes data hs ↔
      ∃ h ∈ hs, h.decoder.accepts data = true ∧ h.decoder.decode data = o := by
  simp [outcomes, and_assoc]

theorem outcomes_eq_nil_iff (data : Bytes) (hs : List Handle) :
    outcomes data hs = [] ↔ ∀ h ∈ hs, ¬h.decoder.accepts data = true := by
  simp [outcomes]

theorem find?_outcomes (data : Bytes) (hs : List Handle) (p : Except DecodeError Event → Bool) :
    (outcomes data hs).find? p =
      (hs.find? fun h => h.decoder.accepts data && p (h.decoder.decode data)).map
        fun h => h.decoder.decode data := by
  simp [outcomes, List.find?_map, List.find?_filter]

theorem getLast?_outcomes (data : Bytes) (hs : List Handle) :
    (outcomes data hs).getLast? =
      (hs.reverse.find? fun h => h.decoder.accepts data).map fun h => h.decoder.decode data := by
  simp [outcomes, List.getLast?_map, List.getLast?_filter]

/-- An outcome is that of a handle that stands between those of the other outcomes. -/
theorem outcomes_split (data : Bytes) (hs : List Handle) (o : Except DecodeError Event)
    (front back : List (Except DecodeError Event)) (h : outcomes data hs = front ++ o :: back) :
    ∃ before g after, hs = before ++ g :: after ∧ outcomes data before = front ∧
      g.decoder.accepts data = true ∧ g.decoder.decode data = o ∧
      outcomes data after = back := by
  induction hs generalizing front with
  | nil => simp at h
  | cons k ks ih =>
    by_cases hk : k.decoder.accepts data = true
    · rw [outcomes_cons_accepts data k ks hk] at h
      cases front with
      | nil =>
        obtain ⟨rfl, hback⟩ := List.cons.inj h
        exact ⟨[], k, ks, rfl, rfl, hk, rfl, hback⟩
      | cons x front =>
        obtain ⟨hx, hrest⟩ := List.cons.inj h
        obtain ⟨before, g, after, rfl, hfront, hg⟩ := ih front hrest
        refine ⟨k :: before, g, after, rfl, ?_, hg⟩
        rw [outcomes_cons_accepts data k before hk, hx, hfront]
    · rw [outcomes_cons_refuses data k ks hk] at h
      obtain ⟨before, g, after, rfl, hfront, hg⟩ := ih front h
      refine ⟨k :: before, g, after, rfl, ?_, hg⟩
      rw [outcomes_cons_refuses data k before hk, hfront]

/-! ## Best effort over outcomes -/

@[simp] theorem isOk_ok (e : Event) : (.ok e : Except DecodeError Event).isOk = true := rfl

@[simp] theorem isOk_error (fault : DecodeError) :
    (.error fault : Except DecodeError Event).isOk = false := rfl

/-- The first event; where there is none, the last error. -/
def bestEffort (last : Option DecodeError) :
    List (Except DecodeError Event) → Except DecodeError Event
  | [] => .error (last.getD (.noneAccepts "registry"))
  | .ok e :: _ => .ok e
  | .error fault :: os => bestEffort (some fault) os

theorem bestEffort_ok_iff (last : Option DecodeError) (os : List (Except DecodeError Event))
    (e : Event) : bestEffort last os = .ok e ↔ os.find? (·.isOk) = some (.ok e) := by
  induction os generalizing last with
  | nil => simp [bestEffort]
  | cons o os ih =>
    cases o with
    | ok x => simp [bestEffort]
    | error fault => simpa [bestEffort] using ih (some fault)

theorem bestEffort_failed (last : Option DecodeError) (os : List (Except DecodeError Event))
    (h : os.find? (·.isOk) = none) :
    bestEffort last os = os.getLast?.getD (.error (last.getD (.noneAccepts "registry"))) := by
  induction os generalizing last with
  | nil => rfl
  | cons o os ih =>
    cases o with
    | ok e => simp at h
    | error fault =>
      have hrest : os.find? (·.isOk) = none := by simpa using h
      rw [bestEffort, ih (some fault) hrest, List.getLast?_cons]
      rfl

/-- Repeating an outcome changes nothing. -/
theorem bestEffort_repeated (last : Option DecodeError) (o : Except DecodeError Event)
    (os ps : List (Except DecodeError Event)) (hos : os ≠ []) (h : ∀ x ∈ os, x = o) :
    bestEffort last (os ++ ps) = bestEffort last (o :: ps) := by
  induction os generalizing last with
  | nil => exact absurd rfl hos
  | cons x xs ih =>
    obtain rfl : x = o := h x List.mem_cons_self
    have hxs : ∀ y ∈ xs, y = x := fun y hy => h y (List.mem_cons_of_mem x hy)
    cases x with
    | ok e => rfl
    | error fault =>
      rw [List.cons_append, bestEffort, bestEffort]
      by_cases hnil : xs = []
      · rw [hnil, List.nil_append]
      · rw [ih (some fault) hnil hxs, bestEffort]

/-! ## Dispatch -/

namespace Candidates

theorem decode_outcomes (c : Candidates) (data : Bytes) :
    c.decode data = (outcomes data c.all).head?.getD (.error .notFound) := by
  rw [decode, resolve, outcomes, List.head?_map, List.head?_filter]
  cases c.all.find? fun h => h.decoder.accepts data with
  | none => rfl
  | some h => rfl

theorem searchBuffer_outcomes (b : TaggedBuffer) (last : Option DecodeError) (hs : List Handle) :
    searchBuffer b last hs = bestEffort last (outcomes b.bytes hs) := by
  induction hs generalizing last with
  | nil => rfl
  | cons h hs ih =>
    rw [searchBuffer, ← Decoder.accepts_bytes, ← Decoder.decode_bytes]
    by_cases hh : h.decoder.accepts b.bytes = true
    · rw [if_pos hh, outcomes_cons_accepts b.bytes h hs hh]
      cases h.decoder.decode b.bytes with
      | ok e => rfl
      | error fault => exact ih (some fault)
    · rw [if_neg hh, outcomes_cons_refuses b.bytes h hs hh]
      exact ih last

theorem decodeItem_outcomes (c : Candidates) (data : Bytes) (h : 8 ≤ data.length) :
    c.decodeItem data = bestEffort none (outcomes data c.all) := by
  obtain ⟨b, hb, rfl⟩ := split_of_length data h
  rw [decodeItem, hb]
  exact searchBuffer_outcomes b none c.all

theorem decodeItem_short (c : Candidates) (data : Bytes) (h : data.length < 8) :
    c.decodeItem data = .error (.tooShort Tag.width data.length) := by
  rw [decodeItem, ofBytes_short data h]
  rfl

/-- The candidate is the first that accepts the payload and reads it. -/
def Succeeds (c : Candidates) (data : Bytes) (h : Handle) : Prop :=
  8 ≤ data.length ∧
    c.all.find? (fun h => h.decoder.accepts data && (h.decoder.decode data).isOk) = some h

theorem length_of_decodeItem (c : Candidates) (data : Bytes) (e : Event)
    (h : c.decodeItem data = .ok e) : 8 ≤ data.length := by
  apply Nat.le_of_not_lt
  intro hlt
  rw [decodeItem_short c data hlt] at h
  cases h

theorem decodeItem_ok_iff (c : Candidates) (data : Bytes) (e : Event) :
    c.decodeItem data = .ok e ↔ ∃ h, c.Succeeds data h ∧ h.decoder.decode data = .ok e := by
  constructor
  · intro h
    have hl := length_of_decodeItem c data e h
    rw [decodeItem_outcomes c data hl, bestEffort_ok_iff, find?_outcomes] at h
    obtain ⟨g, hg, he⟩ := Option.map_eq_some_iff.mp h
    exact ⟨g, ⟨hl, hg⟩, he⟩
  · rintro ⟨g, ⟨hl, hg⟩, he⟩
    rw [decodeItem_outcomes c data hl, bestEffort_ok_iff, find?_outcomes]
    exact Option.map_eq_some_iff.mpr ⟨g, hg, he⟩

end Candidates

end TaggedPayload
