import Mathlib.Data.List.Basic
import TaggedPayload.Proofs.Batch.Places
import TaggedPayload.Proofs.Registry.Outcomes
import TaggedPayload.Proofs.Registry.SoleDecoder
import TaggedPayload.Registry.Command

/-!
# Strict and best-effort dispatch

Best-effort dispatch has every event that strict dispatch has, for the same payload, and has more
only where the first decoder that accepts the payload fails and a later one succeeds. Payloads
without a tag are left out: a batch refuses them before any decoder is asked.
-/

set_option autoImplicit false

namespace TaggedPayload

/-- The first handle that accepts the payload fails, and the first success after it is `e`. -/
def Overruled (data : Bytes) (hs : List Handle) (fault : DecodeError) (e : Event) : Prop :=
  ∃ before first between next after, hs = before ++ first :: (between ++ next :: after) ∧
    (∀ h ∈ before, ¬h.decoder.accepts data = true) ∧
    first.decoder.accepts data = true ∧ first.decoder.decode data = .error fault ∧
    (∀ h ∈ between, h.decoder.accepts data = true → ∃ f, h.decoder.decode data = .error f) ∧
    next.decoder.accepts data = true ∧ next.decoder.decode data = .ok e

def AcceptedOnce (data : Bytes) (hs : List Handle) : Prop :=
  ∀ g ∈ hs, ∀ h ∈ hs, g.decoder.accepts data = true → h.decoder.accepts data = true → g = h

/-- The events of payloads, each with the place of its payload. -/
def eventsAt (decode : Bytes → Except DecodeError Event) (payloads : List Bytes) :
    List (Nat × Event) :=
  payloads.zipIdx.filterMap fun p => (decode p.1).toOption.map fun e => (p.2, e)

/-! ## Events and their places -/

theorem eventsAt_events (decode : Bytes → Except DecodeError Event) (payloads : List Bytes) :
    (eventsAt decode payloads).map (·.2) = payloads.filterMap fun d => (decode d).toOption :=
  placedFrom_results 0 (fun d => (decode d).toOption) payloads

theorem filterMap_sublist {α β : Type} (f g : α → Option β) (xs : List α)
    (h : ∀ x ∈ xs, ∀ y, f x = some y → g x = some y) :
    (xs.filterMap f).Sublist (xs.filterMap g) := by
  induction xs with
  | nil => exact .slnil
  | cons x xs ih =>
    have hrest := ih fun y hy => h y (List.mem_cons_of_mem x hy)
    cases hf : f x with
    | some y =>
      rw [List.filterMap_cons_some hf, List.filterMap_cons_some (h x List.mem_cons_self y hf)]
      exact hrest.cons_cons y
    | none =>
      rw [List.filterMap_cons_none hf]
      cases hg : g x with
      | some y =>
        rw [List.filterMap_cons_some hg]
        exact hrest.cons y
      | none =>
        rw [List.filterMap_cons_none hg]
        exact hrest

theorem eventsAt_sublist (decode more : Bytes → Except DecodeError Event) (payloads : List Bytes)
    (h : ∀ data ∈ payloads, ∀ e, decode data = .ok e → more data = .ok e) :
    (eventsAt decode payloads).Sublist (eventsAt more payloads) := by
  apply filterMap_sublist
  intro p hp y hy
  cases hd : decode p.1 with
  | error fault =>
    rw [hd] at hy
    cases hy
  | ok e =>
    rw [hd] at hy
    rwa [h p.1 (List.fst_mem_of_mem_zipIdx hp) e hd]

/-! ## One payload -/

namespace Candidates

theorem decodeItem_of_decode (c : Candidates) (data : Bytes) (e : Event) (hl : 8 ≤ data.length)
    (h : c.decode data = .ok e) : c.decodeItem data = .ok e := by
  rw [decode_outcomes] at h
  rw [decodeItem_outcomes c data hl]
  cases hos : outcomes data c.all with
  | nil =>
    rw [hos] at h
    cases h
  | cons o os =>
    rw [hos] at h
    obtain rfl : o = .ok e := h
    rfl

theorem overruled_of_decode (c : Candidates) (data : Bytes) (fault : DecodeError) (e : Event)
    (hstrict : c.decode data = .error fault) (h : c.decodeItem data = .ok e) :
    Overruled data c.all fault e := by
  rw [decodeItem_outcomes c data (length_of_decodeItem c data e h), bestEffort_ok_iff,
    List.find?_eq_some_iff_append] at h
  rw [decode_outcomes] at hstrict
  obtain ⟨-, front, back, hos, hfront⟩ := h
  rw [hos] at hstrict
  cases front with
  | nil => cases hstrict
  | cons o front =>
    obtain rfl : o = .error fault := hstrict
    obtain ⟨before, first, rest, hall, hbefore, hacc, hfirst, hrest⟩ :=
      outcomes_split data c.all (.error fault) [] _ hos
    obtain ⟨between, next, after, rfl, hbetween, hnext, he, -⟩ :=
      outcomes_split data rest (.ok e) front back hrest
    refine ⟨before, first, between, next, after, hall, ?_, hacc, hfirst, ?_, hnext, he⟩
    · exact (outcomes_eq_nil_iff data before).mp hbefore
    · intro h hh hhacc
      have hmem : h.decoder.decode data ∈ front := by
        rw [← hbetween]
        exact (mem_outcomes data between _).mpr ⟨h, hh, hhacc, rfl⟩
      have hfailed := hfront _ (List.mem_cons_of_mem _ hmem)
      cases hd : h.decoder.decode data with
      | error f => exact ⟨f, rfl⟩
      | ok x => simp [hd] at hfailed

/-- Where one decoder at most accepts the payload, its outcome is the only one. -/
theorem decodeItem_accepted_once (c : Candidates) (data : Bytes) (hl : 8 ≤ data.length)
    (h : AcceptedOnce data c.all) :
    (c.decodeItem data).toOption = (c.decode data).toOption := by
  rw [decodeItem_outcomes c data hl, decode_outcomes]
  cases hos : outcomes data c.all with
  | nil => rfl
  | cons o os =>
    have hsame : ∀ x ∈ o :: os, x = o := by
      intro x hx
      rw [← hos] at hx
      have ho : o ∈ outcomes data c.all := by
        rw [hos]
        exact List.mem_cons_self
      obtain ⟨g, hg, hgacc, rfl⟩ := (mem_outcomes data c.all x).mp hx
      obtain ⟨k, hk, hkacc, rfl⟩ := (mem_outcomes data c.all o).mp ho
      rw [h g hg k hk hgacc hkacc]
    have hone := bestEffort_repeated none o (o :: os) [] (List.cons_ne_nil o os) hsame
    rw [List.append_nil] at hone
    rw [hone, List.head?_cons, Option.getD_some]
    cases o <;> rfl

end Candidates

/-! ## Payload lists -/

/-- What strict dispatch decodes, a batch decodes, too, at the same place. The batch has more events
only where the first decoder that accepts a payload is overruled by a later one, so none where every
payload is accepted by one decoder at most. -/
theorem strict_within_batch (r : Registry) (program : Option AccountKey) :
    let c := r.candidates program
    let fast := fun payloads => (c.sequentialBatch payloads ⟨false, 0⟩).1.events
    (∀ data e, 8 ≤ data.length → r.decode data program = .ok e → c.decodeItem data = .ok e) ∧
    (∀ data fault e, r.decode data program = .error fault → c.decodeItem data = .ok e →
      Overruled data c.all fault e) ∧
    ∀ payloads : List Bytes, (∀ data ∈ payloads, 8 ≤ data.length) →
      r.decodeAll payloads program = (eventsAt c.decode payloads).map (·.2) ∧
      fast payloads = (eventsAt c.decodeItem payloads).map (·.2) ∧
      (eventsAt c.decode payloads).Sublist (eventsAt c.decodeItem payloads) ∧
      ((∀ data ∈ payloads, AcceptedOnce data c.all) →
        r.decodeAll payloads program = fast payloads) := by
  intro c fast
  have hfast : ∀ payloads, fast payloads = payloads.filterMap fun d => (c.decodeItem d).toOption :=
    fun payloads => Candidates.sequentialBatch_events c payloads false
  refine ⟨fun data e hl h => c.decodeItem_of_decode data e hl h,
    fun data fault e hs h => c.overruled_of_decode data fault e hs h, ?_⟩
  intro payloads hlong
  refine ⟨(eventsAt_events c.decode payloads).symm, ?_, ?_, ?_⟩
  · rw [hfast, eventsAt_events]
  · exact eventsAt_sublist _ _ payloads fun data hd e he =>
      c.decodeItem_of_decode data e (hlong data hd) he
  · intro honce
    rw [hfast]
    apply List.filterMap_congr
    intro data hd
    exact (c.decodeItem_accepted_once data (hlong data hd) (honce data hd)).symm

/-- A poisoned payload is a failure alone and a raw event in a batch, a healthy one is the same
event twice, and one of another tag is accepted once. -/
theorem strict_within_batch_poisoned :
    let tag : Tag := ⟨List.replicate 8 1, rfl⟩
    let swap : Handle := ⟨.shared 0, .tagged ⟨"Swap", .zero, tag, fun bs =>
      if bs = [255] then .error "poisoned" else .ok .null⟩⟩
    let raw : Handle := ⟨.shared 1, .gated ⟨"Raw", .zero, 8, fun bs => .ok (.bytes bs)⟩⟩
    let r := RegistryCommand.run .empty [.register "swap" swap, .register "raw" raw]
    let c := r.candidates none
    let fast := fun payloads => (c.sequentialBatch payloads ⟨false, 0⟩).1.events
    let healthy := tag.bytes ++ [7]
    let poisoned := tag.bytes ++ [255]
    let other : Bytes := List.replicate 9 2
    let event : Event := ⟨"Swap", .null, healthy, .zero, some tag⟩
    let rawEvent : Event := ⟨"Raw", .bytes poisoned, poisoned, .zero, none⟩
    (8 ≤ healthy.length ∧ r.decode healthy none = .ok event ∧ c.decodeItem healthy = .ok event) ∧
    (r.decode poisoned none = .error (.failure "Swap" "poisoned") ∧
      c.decodeItem poisoned = .ok rawEvent ∧
      Overruled poisoned c.all (.failure "Swap" "poisoned") rawEvent) ∧
    ((∀ data ∈ [poisoned, healthy], 8 ≤ data.length) ∧
      eventsAt c.decode [poisoned, healthy] = [(1, event)] ∧
      eventsAt c.decodeItem [poisoned, healthy] = [(0, rawEvent), (1, event)] ∧
      (eventsAt c.decode [poisoned, healthy]).Sublist
        (eventsAt c.decodeItem [poisoned, healthy])) ∧
    (∀ data ∈ [other], AcceptedOnce data c.all) ∧ r.decodeAll [other] none = fast [other] := by
  intro tag swap raw r c fast healthy poisoned other event rawEvent
  obtain ⟨hitem, hoverruled, hlists⟩ := strict_within_batch r none
  have hall : c.all = [swap, raw] := rfl
  have honce : ∀ data ∈ [other], AcceptedOnce data c.all := by
    intro data hd g hg h hh hgacc hhacc
    rw [hall] at hg hh
    rw [List.mem_singleton.mp hd] at hgacc hhacc
    have hswap : ¬swap.decoder.accepts other = true := by decide +kernel
    have hraw : ∀ k ∈ [swap, raw], k.decoder.accepts other = true → k = raw := by
      intro k hk hacc
      rcases List.mem_pair.mp hk with rfl | rfl
      · exact absurd hacc hswap
      · rfl
    rw [hraw g hg hgacc, hraw h hh hhacc]
  have hevent : r.decode healthy none = .ok event := by decide +kernel
  have hfault : r.decode poisoned none = .error (.failure "Swap" "poisoned") := by decide +kernel
  have hraw : c.decodeItem poisoned = .ok rawEvent := by decide +kernel
  have hlong : ∀ data ∈ [poisoned, healthy], 8 ≤ data.length := by decide
  refine ⟨⟨by decide, hevent, hitem _ _ (by decide) hevent⟩,
    ⟨hfault, hraw, hoverruled _ _ _ hfault hraw⟩,
    ⟨hlong, by decide +kernel, by decide +kernel, (hlists _ hlong).2.2.1⟩, honce, ?_⟩
  exact (hlists [other] (by decide)).2.2.2 honce

end TaggedPayload
