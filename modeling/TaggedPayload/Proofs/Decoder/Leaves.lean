import TaggedPayload.Decoder.Basic

/-!
# Leaves of decoders

However its composites are nested, a decoder hands an accepted payload to one decoder without
members, a leaf, and the leaf's event is the event. What a caller's function puts into its events is
left open. The other leaves put in the payload, their own name and program, and a tag just if the
payload starts with it.
-/

set_option autoImplicit false

namespace TaggedPayload.Decoder

mutual

/-- The decoders without members, in the order in which they are asked. -/
def leaves : Decoder → List Decoder
  | composite _ _ ds => leavesOf ds
  | function d => [function d]
  | gated d => [gated d]
  | tagged d => [tagged d]

def leavesOf : List Decoder → List Decoder
  | [] => []
  | d :: ds => leaves d ++ leavesOf ds

end

def Functionless (d : Decoder) : Prop :=
  ∀ f, function f ∉ d.leaves

/-- The leaf accepts the payload, and the event says that it is the leaf's event of the payload. -/
structure Marks (leaf : Decoder) (data : Bytes) (e : Event) : Prop where
  accepts : leaf.accepts data = true
  decode : leaf.decode data = .ok e
  raw : e.raw = data
  name : e.name = leaf.name
  program : e.program = leaf.program
  tag : ∀ t, e.tag = some t → 8 ≤ data.length ∧ data.take 8 = t.bytes
  untagged : e.tag = none → ∃ d, leaf = gated d

theorem take_of_leading (data : Bytes) (t : Tag) (h : Tag.leading? data = some t) :
    8 ≤ data.length ∧ data.take 8 = t.bytes := by
  rw [Tag.leading?, Tag.ofBytes?] at h
  split at h
  · next hl =>
    cases h
    rw [List.length_take] at hl
    exact ⟨by omega, rfl⟩
  · cases h

theorem gated_marks (d : GatedDecoder) (data : Bytes) (e : Event)
    (h : (gated d).decode data = .ok e) : (gated d).Marks data e := by
  have hdecode := h
  rw [Decoder.decode] at h
  split at h
  · next hl =>
    split at h
    · cases h
      refine ⟨?_, hdecode, rfl, rfl, rfl, ?_, fun _ => ⟨d, rfl⟩⟩
      · rw [Decoder.accepts, decide_eq_true hl]
      · intro t ht
        cases ht
    · cases h
  · cases h

theorem tagged_marks (d : TaggedDecoder) (data : Bytes) (e : Event)
    (h : (tagged d).decode data = .ok e) : (tagged d).Marks data e := by
  have hdecode := h
  rw [Decoder.decode, TaggedDecoder.decode] at h
  split at h
  · next hacc =>
    rw [TaggedDecoder.event] at h
    split at h
    · cases h
      refine ⟨?_, hdecode, rfl, rfl, rfl, ?_, ?_⟩
      · rwa [Decoder.accepts]
      · intro t ht
        rw [TaggedDecoder.accepts, beq_iff_eq] at hacc
        exact take_of_leading data t (hacc.trans ht)
      · intro ht
        cases ht
    · cases h
  · cases h

mutual

theorem marks_of_decode (data : Bytes) (e : Event) : (d : Decoder) → d.Functionless →
    d.decode data = .ok e → ∃ leaf ∈ d.leaves, leaf.Marks data e
  | function f, hf, _ => absurd (by rw [leaves]; exact List.mem_cons_self) (hf f)
  | gated d, _, h => ⟨gated d, by rw [leaves]; exact List.mem_cons_self, gated_marks d data e h⟩
  | tagged d, _, h => ⟨tagged d, by rw [leaves]; exact List.mem_cons_self, tagged_marks d data e h⟩
  | composite n _ ds, hf, h => by
    rw [Functionless, leaves] at hf
    rw [Decoder.decode] at h
    rw [leaves]
    exact marks_of_decodeFirst data e n ds hf h

theorem marks_of_decodeFirst (data : Bytes) (e : Event) (owner : String) : (ds : List Decoder) →
    (∀ f, function f ∉ leavesOf ds) → decodeFirst data owner ds = .ok e →
      ∃ leaf ∈ leavesOf ds, leaf.Marks data e
  | [], _, h => by
    rw [decodeFirst] at h
    cases h
  | d :: ds, hf, h => by
    rw [leavesOf] at hf ⊢
    rw [decodeFirst] at h
    split at h
    · obtain ⟨leaf, hleaf, hm⟩ := marks_of_decode data e d
        (fun f hd => hf f (List.mem_append_left _ hd)) h
      exact ⟨leaf, List.mem_append_left _ hleaf, hm⟩
    · obtain ⟨leaf, hleaf, hm⟩ := marks_of_decodeFirst data e owner ds
        (fun f hd => hf f (List.mem_append_right _ hd)) h
      exact ⟨leaf, List.mem_append_right _ hleaf, hm⟩

end

end TaggedPayload.Decoder
