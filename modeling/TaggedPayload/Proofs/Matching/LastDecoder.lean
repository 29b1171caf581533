import Mathlib.Data.List.Dedup
import TaggedPayload.Matching.Exact
import TaggedPayload.Proofs.Decoder.FirstLeaf
import TaggedPayload.Proofs.Decoder.SplitBuffer
import TaggedPayload.Proofs.Matching.FirstPlace

/-!
# The last decoder of a tag

The table of tagged decoders finds the last decoder of a tag in the list that it was made of. A
composite finds the first one, so a table decodes as the composite of the reversed list does; they
name different owners when they refuse a payload. A matcher of places finds the first place of the
tag. It hits when the table does, and where no tag comes twice the decoder at that place is the
decoder of the table.
-/

set_option autoImplicit false

namespace TaggedPayload

/-- The composite that asks tagged decoders from the last one to the first. -/
def lastFirst (name : String) (program : AccountKey) (ds : List TaggedDecoder) : Decoder :=
  .composite name program (ds.reverse.map .tagged)

namespace ExactMatcher

theorem matchOne_insert (m : ExactMatcher) (d : TaggedDecoder) (t : Tag) :
    (m.insert d).matchOne t = if d.tag = t then some d else m.matchOne t := by
  by_cases h : d.tag = t <;> simp [matchOne, insert, Std.HashMap.getElem?_insert, h]

theorem matchOne_foldl (m : ExactMatcher) (ds : List TaggedDecoder) (t : Tag) :
    (ds.foldl insert m).matchOne t =
      (ds.reverse.find? fun d => d.tag == t).or (m.matchOne t) := by
  induction ds generalizing m with
  | nil => simp
  | cons d ds ih =>
    rw [List.foldl_cons, ih, matchOne_insert, List.reverse_cons, List.find?_append]
    by_cases h : d.tag = t <;> simp [h]

theorem matchOne_ofList (ds : List TaggedDecoder) (t : Tag) :
    (ofList ds).matchOne t = ds.reverse.find? fun d => d.tag == t := by
  have hempty : empty.matchOne t = none := by simp [matchOne, empty]
  rw [ofList, matchOne_foldl, hempty, Option.or_none]

theorem matchOne_isSome (ds : List TaggedDecoder) (t : Tag) :
    ((ofList ds).matchOne t).isSome = true ↔ t ∈ ds.map (·.tag) := by
  simp [matchOne_ofList]

/-- The table has one decoder for each of the tags. -/
theorem size_ofList (ds : List TaggedDecoder) :
    (ofList ds).size = (ds.map (·.tag)).dedup.length := by
  have hmem : ∀ t, t ∈ (ofList ds).table.keys ↔ t ∈ (ds.map (·.tag)).dedup := by
    intro t
    rw [Std.HashMap.mem_keys, List.mem_dedup, ← matchOne_isSome,
      Std.HashMap.mem_iff_isSome_getElem?]
    rfl
  have hperm := (List.perm_ext_iff_of_nodup Std.HashMap.nodup_keys (List.nodup_dedup _)).mpr hmem
  rw [size, ← Std.HashMap.length_keys, hperm.length_eq]

theorem decode_bytes (m : ExactMatcher) (b : TaggedBuffer) :
    m.decode b.bytes =
      ((m.matchOne b.tag).map (·.decode b.bytes)).getD (.error (.noneAccepts "ExactMatcher")) := by
  rw [decode, TaggedBuffer.ofBytes_bytes]
  cases hd : m.matchOne b.tag with
  | none => simp [hd]
  | some d => simp [hd, d.decode_bytes]

theorem decode_short (m : ExactMatcher) (data : Bytes) (h : data.length < 8) :
    m.decode data = .error (.tooShort 8 data.length) := by
  rw [decode, ofBytes_short data h]

end ExactMatcher

theorem TaggedDecoder.decode_ne_noneAccepts (d : TaggedDecoder) (data : Bytes) (owner : String) :
    d.decode data ≠ .error (.noneAccepts owner) := by
  rw [decode, event]
  split
  · split <;> simp
  · simp [DecodeError.ofMismatch]

/-! ## The composite -/

namespace Decoder

theorem leavesOf_tagged (ds : List TaggedDecoder) : leavesOf (ds.map tagged) = ds.map tagged := by
  induction ds with
  | nil => rfl
  | cons d ds ih => simp [leavesOf, leaves, ih]

theorem find?_tagged (ds : List TaggedDecoder) (b : TaggedBuffer) :
    (ds.map tagged).find? (accepts b.bytes) = (ds.find? fun d => d.tag == b.tag).map tagged := by
  rw [List.find?_map]
  congr 2
  funext d
  rw [Function.comp, accepts, d.accepts_bytes, TaggedDecoder.acceptsBuffer, Bool.beq_comm]

theorem lastFirst_decode (name : String) (program : AccountKey) (ds : List TaggedDecoder)
    (b : TaggedBuffer) :
    (lastFirst name program ds).decode b.bytes =
      (((ExactMatcher.ofList ds).matchOne b.tag).map (·.decode b.bytes)).getD
        (.error (.noneAccepts name)) := by
  rw [lastFirst, decode_leaves, firstOutcome, leaves, leavesOf_tagged, find?_tagged,
    ExactMatcher.matchOne_ofList, Option.map_map]
  rfl

theorem lastFirst_accepts (name : String) (program : AccountKey) (ds : List TaggedDecoder)
    (b : TaggedBuffer) :
    (lastFirst name program ds).accepts b.bytes =
      ((ExactMatcher.ofList ds).matchOne b.tag).isSome := by
  rw [lastFirst, accepts_leaves, leaves, leavesOf_tagged, ← List.isSome_find?, find?_tagged,
    Option.isSome_map, ExactMatcher.matchOne_ofList]

end Decoder

/-! ## First places -/

namespace StrategyMatcher

theorem matchOne_first (candidates : List Tag) (s : MatchStrategy) (t : Tag) :
    (ofList candidates s).matchOne t = candidates.idxOf? t :=
  lookup_first candidates s 1 t

theorem matchBatch_first (candidates : List Tag) (s : MatchStrategy) (ts : List Tag) :
    (ofList candidates s).matchBatch ts = ts.map fun t => candidates.idxOf? t := by
  rw [matchBatch]
  exact List.map_congr_left fun t _ => lookup_first candidates s ts.length t

/-- The decoder at the first place of a tag is the first decoder of the tag. -/
theorem idxOf?_decoder (ds : List TaggedDecoder) (t : Tag) :
    ((ds.map (·.tag)).idxOf? t).bind (fun i => ds[i]?) = ds.find? fun d => d.tag == t := by
  rw [List.idxOf?, List.findIdx?_map, List.find?_eq_bind_findIdx?_getElem?]
  rfl

end StrategyMatcher

theorem find?_tag_iff (ds : List TaggedDecoder) (h : (ds.map (·.tag)).Nodup) (t : Tag)
    (d : TaggedDecoder) : (ds.find? fun d => d.tag == t) = some d ↔ d ∈ ds ∧ d.tag = t := by
  constructor
  · intro hd
    exact ⟨List.mem_of_find?_eq_some hd, by simpa using List.find?_some hd⟩
  · rintro ⟨hd, htag⟩
    cases he : ds.find? fun d => d.tag == t with
    | none => simpa [htag] using List.find?_eq_none.mp he d hd
    | some e =>
      have hetag : e.tag = t := by simpa using List.find?_some he
      rw [List.inj_on_of_nodup_map h hd (List.mem_of_find?_eq_some he) (htag.trans hetag.symm)]

/-- Where no tag comes twice, the first decoder of a tag is the last one. -/
theorem find?_reverse_tag (ds : List TaggedDecoder) (h : (ds.map (·.tag)).Nodup) (t : Tag) :
    (ds.reverse.find? fun d => d.tag == t) = ds.find? fun d => d.tag == t := by
  have hreverse : (ds.reverse.map (·.tag)).Nodup := by rwa [List.map_reverse, List.nodup_reverse]
  apply Option.ext
  intro d
  rw [find?_tag_iff ds h, find?_tag_iff ds.reverse hreverse, List.mem_reverse]

namespace ExactMatcher

theorem matchOne_last (ds : List TaggedDecoder) (t : Tag) :
    (ofList ds).matchOne t = (ds.filter fun d => d.tag = t).getLast? := by
  rw [matchOne_ofList, List.getLast?_filter]
  rfl

/-- A payload with a tag is decoded as the composite of the reversed list decodes it, unless that
composite refuses it. No decoder of the table fails in the way in which the table refuses. -/
theorem decode_lastFirst (ds : List TaggedDecoder) (name : String) (program : AccountKey)
    (data : Bytes) (hl : 8 ≤ data.length) :
    (∀ t, Tag.leading? data = some t → ((ofList ds).matchOne t).isSome = true →
        (ofList ds).decode data = (lastFirst name program ds).decode data) ∧
      ∀ owner, (ofList ds).decode data = .error (.noneAccepts owner) ↔
        (lastFirst name program ds).accepts data = false ∧ owner = "ExactMatcher" := by
  obtain ⟨b, -, rfl⟩ := split_of_length data hl
  rw [leading_bytes, decode_bytes, Decoder.lastFirst_decode, Decoder.lastFirst_accepts]
  constructor
  · rintro t ⟨⟩ hhit
    obtain ⟨d, hd⟩ := Option.isSome_iff_exists.mp hhit
    rw [hd]
    rfl
  · intro owner
    cases (ofList ds).matchOne b.tag with
    | none => simp [eq_comm]
    | some d => simpa using d.decode_ne_noneAccepts b.bytes owner

theorem isSome_place (ds : List TaggedDecoder) (t : Tag) :
    ((ds.map (·.tag)).idxOf? t).isSome = ((ofList ds).matchOne t).isSome := by
  rw [Bool.eq_iff_iff, List.isSome_idxOf?, matchOne_isSome]

theorem matchOne_place (ds : List TaggedDecoder) (h : (ds.map (·.tag)).Nodup) (t : Tag) :
    (ofList ds).matchOne t = ((ds.map (·.tag)).idxOf? t).bind fun i => ds[i]? := by
  rw [StrategyMatcher.idxOf?_decoder, matchOne_ofList, find?_reverse_tag ds h]

end ExactMatcher

/-- A table of tagged decoders keeps the last decoder of every tag and counts the tags. It decodes
like the composite of the reversed list and refuses what that composite refuses. Matchers of places
hit the same tags under every strategy; their places are those of the table's decoders where no tag
comes twice. -/
theorem last_decoder_of_tag (ds : List TaggedDecoder) (s : MatchStrategy) (name : String)
    (program : AccountKey) :
    let m := ExactMatcher.ofList ds
    let places := StrategyMatcher.ofList (ds.map (·.tag)) s
    let reversed := lastFirst name program ds
    (∀ t, m.matchOne t = (ds.filter fun d => d.tag = t).getLast?) ∧
      m.size = (ds.map (·.tag)).dedup.length ∧
      (∀ ts, m.matchBatch ts = ts.map m.matchOne) ∧
      (∀ data, 8 ≤ data.length →
        (∀ t, Tag.leading? data = some t → (m.matchOne t).isSome = true →
          m.decode data = reversed.decode data) ∧
        ∀ owner, m.decode data = .error (.noneAccepts owner) ↔
          reversed.accepts data = false ∧ owner = "ExactMatcher") ∧
      (∀ data, data.length < 8 → m.decode data = .error (.tooShort 8 data.length)) ∧
      (∀ t, (places.matchOne t).isSome = (m.matchOne t).isSome) ∧
      (∀ ts, (places.matchBatch ts).map (·.isSome) = (m.matchBatch ts).map (·.isSome)) ∧
      ((ds.map (·.tag)).Nodup →
        (∀ t, m.matchOne t = (places.matchOne t).bind fun i => ds[i]?) ∧
          ∀ ts, m.matchBatch ts = (places.matchBatch ts).map (·.bind fun i => ds[i]?)) := by
  intro m places reversed
  refine ⟨ExactMatcher.matchOne_last ds, ExactMatcher.size_ofList ds, fun _ => rfl,
    ExactMatcher.decode_lastFirst ds name program, ExactMatcher.decode_short m, ?_, ?_, ?_⟩
  · intro t
    rw [StrategyMatcher.matchOne_first, ExactMatcher.isSome_place]
  · intro ts
    rw [StrategyMatcher.matchBatch_first, ExactMatcher.matchBatch, List.map_map, List.map_map]
    exact List.map_congr_left fun t _ => ExactMatcher.isSome_place ds t
  · intro htags
    constructor
    · intro t
      rw [StrategyMatcher.matchOne_first]
      exact ExactMatcher.matchOne_place ds htags t
    · intro ts
      rw [StrategyMatcher.matchBatch_first, ExactMatcher.matchBatch, List.map_map]
      exact List.map_congr_left fun t _ => ExactMatcher.matchOne_place ds htags t

/-- Three decoders of two tags, of which the last one cannot read its payload; and two decoders of
these, with one tag each. -/
theorem last_decoder_of_tag_repeated :
    let one : Tag := ⟨List.replicate 8 1, rfl⟩
    let two : Tag := ⟨List.replicate 8 2, rfl⟩
    let first : TaggedDecoder := ⟨"First", .zero, one, fun _ => .ok .null⟩
    let other : TaggedDecoder := ⟨"Other", .zero, two, fun bs => .ok (.bytes bs)⟩
    let second : TaggedDecoder := ⟨"Second", .zero, one, fun _ => .error "corrupt"⟩
    let ds := [first, other, second]
    let apart := [other, second]
    let places := StrategyMatcher.ofList (apart.map (·.tag)) .vectorized
    let data := one.bytes ++ [5]
    ((ExactMatcher.ofList ds).size = 2 ∧ (ExactMatcher.ofList ds).matchOne one = some second) ∧
      (8 ≤ data.length ∧ Tag.leading? data = some one ∧
        (ExactMatcher.ofList ds).decode data = (lastFirst "all" .zero ds).decode data ∧
        (lastFirst "all" .zero ds).decode data = .error (.failure "Second" "corrupt")) ∧
      (ExactMatcher.ofList ds).decode [1] = .error (.tooShort 8 1) ∧
      (apart.map (·.tag)).Nodup ∧ places.matchOne one = some 1 ∧
      (ExactMatcher.ofList apart).matchOne one =
        (places.matchOne one).bind fun i => apart[i]? := by
  intro one two first other second ds apart places data
  obtain ⟨hlast, hsize, -, hlong, hshort, -⟩ := last_decoder_of_tag ds .auto "all" .zero
  obtain ⟨-, -, -, -, -, -, -, hapart⟩ := last_decoder_of_tag apart .vectorized "all" .zero
  have hone : (ExactMatcher.ofList ds).matchOne one = some second := (hlast one).trans rfl
  have htags : (apart.map (·.tag)).Nodup := by decide
  have hhit := (hlong data (by decide)).1 one rfl (by rw [hone]; rfl)
  exact ⟨⟨hsize.trans rfl, hone⟩, ⟨by decide, rfl, hhit, rfl⟩, hshort [1] (by decide), htags,
    by decide +kernel, (hapart htags).1 one⟩

end TaggedPayload
