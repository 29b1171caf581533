import TaggedPayload.Proofs.Decoder.Leaves

/-!
# The first leaf that accepts

A composite asks its members in order whether one of their own members accepts, so the member it
chooses is the one that holds the first accepting leaf, at every depth. How leaves are grouped does
not show: the outcome of an accepted payload is that of the first leaf that accepts it, and it stays
that outcome if it is an error. A payload that no leaf accepts is refused with the error of the gate
it was tested at, never with an error of reading.
-/

set_option autoImplicit false

namespace TaggedPayload.Decoder

def refusal (data : Bytes) : Decoder → DecodeError
  | function d => .noneAccepts d.name
  | gated d => .tooShort d.least data.length
  | tagged d => .ofMismatch d.name d.tag data
  | composite n _ _ => .noneAccepts n

mutual

theorem composite_notMem_leaves (n : String) (p : AccountKey) (ds : List Decoder) :
    (d : Decoder) → composite n p ds ∉ d.leaves
  | function _ => by simp [leaves]
  | gated _ => by simp [leaves]
  | tagged _ => by simp [leaves]
  | composite _ _ es => by
    rw [leaves]
    exact composite_notMem_leavesOf n p ds es

theorem composite_notMem_leavesOf (n : String) (p : AccountKey) (ds : List Decoder) :
    (es : List Decoder) → composite n p ds ∉ leavesOf es
  | [] => by simp [leavesOf]
  | e :: es => by
    simp [leavesOf, composite_notMem_leaves n p ds e, composite_notMem_leavesOf n p ds es]

end

mutual

theorem accepts_leaves (data : Bytes) :
    (d : Decoder) → d.accepts data = d.leaves.any (accepts data)
  | function _ => by simp [leaves]
  | gated _ => by simp [leaves]
  | tagged _ => by simp [leaves]
  | composite _ _ ds => by rw [accepts, leaves, anyAccepts_leaves data ds]

theorem anyAccepts_leaves (data : Bytes) :
    (ds : List Decoder) → anyAccepts data ds = (leavesOf ds).any (accepts data)
  | [] => by simp [anyAccepts, leavesOf]
  | d :: ds => by
    rw [anyAccepts, leavesOf, List.any_append, accepts_leaves data d, anyAccepts_leaves data ds]

end

theorem accepts_iff (d : Decoder) (data : Bytes) :
    d.accepts data = true ↔ ∃ leaf ∈ d.leaves, leaf.accepts data = true := by
  rw [accepts_leaves, List.any_eq_true]

theorem find?_of_accepts (d : Decoder) (data : Bytes) (h : d.accepts data = true) :
    ∃ leaf, d.leaves.find? (accepts data) = some leaf := by
  rw [← Option.isSome_iff_exists, List.isSome_find?, ← accepts_leaves, h]

theorem find?_of_refuses (d : Decoder) (data : Bytes) (h : ¬d.accepts data = true) :
    d.leaves.find? (accepts data) = none := by
  rwa [← Option.not_isSome_iff_eq_none, List.isSome_find?, ← accepts_leaves]

/-- The outcome of the first of these decoders that accepts, or else an error. -/
def firstOutcome (data : Bytes) (refused : DecodeError) (ds : List Decoder) :
    Except DecodeError Event :=
  ((ds.find? (accepts data)).map (decode data)).getD (.error refused)

mutual

theorem decode_leaves (data : Bytes) :
    (d : Decoder) → d.decode data = firstOutcome data (d.refusal data) d.leaves
  | function d => by
    by_cases h : d.accepts data = true <;>
      simp [firstOutcome, leaves, decode, accepts, refusal, h]
  | gated d => by
    by_cases h : d.least ≤ data.length <;>
      simp [firstOutcome, leaves, decode, accepts, refusal, h]
  | tagged d => by
    by_cases h : d.accepts data = true <;>
      simp [firstOutcome, leaves, decode, TaggedDecoder.decode, accepts, refusal, h]
  | composite n _ ds => by
    rw [decode, leaves, refusal, decodeFirst_leaves data n ds]

theorem decodeFirst_leaves (data : Bytes) (owner : String) :
    (ds : List Decoder) →
      decodeFirst data owner ds = firstOutcome data (.noneAccepts owner) (leavesOf ds)
  | [] => by simp [decodeFirst, firstOutcome, leavesOf]
  | d :: ds => by
    rw [decodeFirst, leavesOf]
    -- A member is chosen just if it holds an accepting leaf, and then the first one is there.
    by_cases h : d.accepts data = true
    · obtain ⟨leaf, hleaf⟩ := find?_of_accepts d data h
      rw [if_pos h, decode_leaves data d]
      simp [firstOutcome, List.find?_append, hleaf]
    · rw [if_neg h, decodeFirst_leaves data owner ds]
      simp [firstOutcome, List.find?_append, find?_of_refuses d data h]

end

theorem decode_accepted (d : Decoder) (data : Bytes) (leaf : Decoder)
    (h : d.leaves.find? (accepts data) = some leaf) : d.decode data = leaf.decode data := by
  rw [decode_leaves, firstOutcome, h]
  rfl

theorem decode_refused (d : Decoder) (data : Bytes) (h : d.accepts data = false) :
    d.decode data = .error (d.refusal data) := by
  rw [decode_leaves, firstOutcome, find?_of_refuses d data (by simp [h])]
  rfl

/-- A decoder accepts a payload just if one of its leaves does, and none of these is a composite. The
first accepting leaf then has the outcome, be it an event or an error; a payload that no leaf accepts
is refused. Decoders with the same leaves therefore differ in the error of refusal only. -/
theorem first_leaf_decides (d : Decoder) (data : Bytes) :
    (∀ n p ds, composite n p ds ∉ d.leaves) ∧
      (d.accepts data = true ↔ ∃ leaf ∈ d.leaves, leaf.accepts data = true) ∧
      (∀ leaf, d.leaves.find? (accepts data) = some leaf → d.decode data = leaf.decode data) ∧
      (d.accepts data = false → d.decode data = .error (d.refusal data)) ∧
      ∀ other : Decoder, other.leaves = d.leaves →
        other.accepts data = d.accepts data ∧
          (d.accepts data = true → other.decode data = d.decode data) := by
  refine ⟨fun n p ds => composite_notMem_leaves n p ds d, accepts_iff d data,
    decode_accepted d data, decode_refused d data, ?_⟩
  intro other hleaves
  constructor
  · rw [accepts_leaves, accepts_leaves, hleaves]
  · intro hacc
    obtain ⟨leaf, hleaf⟩ := find?_of_accepts d data hacc
    rw [decode_accepted d data leaf hleaf, decode_accepted other data leaf (hleaves ▸ hleaf)]

/-- The first accepting leaf, three composites deep, cannot read the payload, and the next one could;
a payload that is too short for all leaves names the outermost composite. -/
theorem first_leaf_decides_deep :
    let tag : Tag := ⟨List.replicate 8 7, rfl⟩
    let poisoned : Decoder := .tagged ⟨"Poisoned", .zero, tag, fun _ => .error "bad byte"⟩
    let raw : Decoder := .gated ⟨"Raw", .zero, 8, fun bs => .ok (.bytes bs)⟩
    let mute : Decoder := .function ⟨"Mute", .zero, fun _ => false, fun _ => .error .notFound⟩
    let deep := composite "outer" .zero [composite "empty" .zero [], mute,
      composite "middle" .zero [composite "inner" .zero [poisoned], raw]]
    let flat := composite "flat" .zero [mute, poisoned, raw]
    deep.leaves = flat.leaves ∧
      (deep.leaves.find? (accepts tag.bytes) = some poisoned ∧
        deep.decode tag.bytes = .error (.failure "Poisoned" "bad byte") ∧
        flat.decode tag.bytes = deep.decode tag.bytes) ∧
      deep.accepts [7] = false ∧ deep.decode [7] = .error (.noneAccepts "outer") ∧
      flat.decode [7] = .error (.noneAccepts "flat") := by
  intro tag poisoned raw mute deep flat
  have hfirst : deep.leaves.find? (accepts tag.bytes) = some poisoned := rfl
  obtain ⟨-, -, hfound, -, hsame⟩ := first_leaf_decides deep tag.bytes
  obtain ⟨-, -, -, hrefused, -⟩ := first_leaf_decides deep [7]
  refine ⟨rfl, ⟨hfirst, hfound poisoned hfirst, (hsame flat rfl).2 rfl⟩, rfl, hrefused rfl, rfl⟩

end TaggedPayload.Decoder
