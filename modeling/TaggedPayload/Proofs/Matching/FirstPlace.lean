import TaggedPayload.Matching.Strategy
import TaggedPayload.Proofs.Binary.LittleEndian

/-!
# The first place of a tag

Every strategy finds the first place of a tag among the candidates: the table because a place that
is taken stays, the lanes because the lowest bit of a mask is the first place of its key and the
mask of the last lane leaves the filling zeros out. Lanes compare the numbers of tags, which differ
when the tags do.
-/

set_option autoImplicit false

namespace TaggedPayload

/-! ## One lane -/

namespace Lane

theorem maskFrom_testBit (key i j : Nat) (keys : List Nat) :
    (maskFrom key i keys).testBit j = (decide (i ≤ j) && keys[j - i]? == some key) := by
  induction keys generalizing i with
  | nil => simp [maskFrom]
  | cons k ks ih =>
    have hk : (if k == key then 1 <<< i else 0).testBit j = (k == key && decide (i = j)) := by
      by_cases h : k = key <;> simp [h, Nat.one_shiftLeft, Nat.testBit_two_pow]
    rw [maskFrom, Nat.testBit_or, hk, ih]
    rcases Nat.lt_trichotomy i j with hlt | heq | hgt
    · have hj : j - i = j - (i + 1) + 1 := by omega
      rw [hj, List.getElem?_cons_succ]
      simp [show i ≠ j by omega, show i ≤ j by omega, show i + 1 ≤ j by omega]
    · subst heq
      simp [show ¬ i + 1 ≤ i by omega]
    · simp [show i ≠ j by omega, show ¬ i ≤ j by omega, show ¬ i + 1 ≤ j by omega]

/-- The lowest bit is the first place of the key, if each bit stands for the key's place. -/
theorem lowestBit_first (bits key i w : Nat) (keys : List Nat) (hw : keys.length ≤ w)
    (h : ∀ j, j < w → bits.testBit (i + j) = (keys[j]? == some key)) :
    lowestBit bits i w = (keys.idxOf? key).map (i + ·) := by
  induction w generalizing i keys with
  | zero =>
    rw [List.eq_nil_of_length_eq_zero (Nat.le_zero.mp hw)]
    rfl
  | succ w ih =>
    have h0 := h 0 (Nat.succ_pos w)
    have hs : ∀ j, j < w → bits.testBit (i + 1 + j) = (keys[j + 1]? == some key) := by
      intro j hj
      rw [← h (j + 1) (by omega), Nat.add_assoc, Nat.add_comm 1]
    rw [Nat.add_zero] at h0
    cases keys with
    | nil =>
      rw [lowestBit, h0, ih (i + 1) [] (Nat.zero_le w) (fun j hj => hs j hj)]
      rfl
    | cons k ks =>
      have hks := ih (i + 1) ks (Nat.le_of_succ_le_succ hw) (fun j hj => hs j hj)
      rw [lowestBit, h0, hks, List.idxOf?_cons]
      by_cases hk : k = key
      · simp [hk]
      · simp only [List.getElem?_cons_zero, Option.some_beq_some, beq_iff_eq, hk, if_false,
          Option.map_map]
        congr 1
        funext b
        simp only [Function.comp]
        omega

/-- A lane of eight keys needs no filling. -/
theorem full_lane_first (key : Nat) (keys : List Nat) (h : keys.length = laneWidth) :
    lowestBit ((ofKeys keys).mask key) 0 laneWidth = keys.idxOf? key := by
  have hf : ofKeys keys = keys := by rw [ofKeys, h]; simp
  have hb := lowestBit_first (mask key keys) key 0 laneWidth keys (Nat.le_of_eq h)
    (fun j _ => by rw [mask, maskFrom_testBit]; simp)
  rw [hf, hb]
  simp

/-- Behind its mask, a filled lane has no other places than those of its keys. -/
theorem filled_lane_first (key : Nat) (keys : List Nat) (h : keys.length ≤ laneWidth) :
    lowestBit ((ofKeys keys).mask key &&& ((1 <<< keys.length) - 1)) 0 laneWidth =
      keys.idxOf? key := by
  have hb := lowestBit_first ((ofKeys keys).mask key &&& ((1 <<< keys.length) - 1)) key 0 laneWidth
    keys h (fun j _ => by
      rw [Nat.testBit_and, Nat.one_shiftLeft, Nat.testBit_two_pow_sub_one, mask, maskFrom_testBit, Nat.zero_add,
        Nat.sub_zero, ofKeys]
      by_cases hj : j < keys.length
      · simp [hj, List.getElem?_append_left]
      · simp [hj])
  rw [hb]
  simp

end Lane

/-! ## All lanes and the table -/

namespace StrategyMatcher

theorem lanes_isEmpty (keys : List Nat) :
    ((chunks laneWidth keys).map Lane.ofKeys).isEmpty = keys.isEmpty := by
  rw [List.isEmpty_map, chunks]
  cases keys <;> simp [laneWidth]

theorem scan_first (tail key i : Nat) (keys : List Nat)
    (ht : tail = if keys.length % laneWidth = 0 then (1 <<< laneWidth) - 1
      else (1 <<< (keys.length % laneWidth)) - 1) :
    scan tail key i ((chunks laneWidth keys).map Lane.ofKeys) =
      (keys.idxOf? key).map (i * laneWidth + ·) := by
  induction keys using chunks.induct laneWidth generalizing i with
  | case1 keys h =>
    have hk : keys = [] := h.resolve_left (by decide)
    subst hk
    unfold chunks
    rfl
  | case2 keys h ih =>
    have hpos : 0 < keys.length := List.length_pos_iff.mpr fun e => h (.inr e)
    rw [chunks, dif_neg h, List.map_cons, scan, lanes_isEmpty]
    -- Only the last lane is masked; the mask's width is the length of all keys modulo a lane.
    by_cases hlong : laneWidth < keys.length
    · have hlen : (keys.take laneWidth).length = laneWidth := by
        rw [List.length_take]
        omega
      have hrest : (keys.drop laneWidth).isEmpty = false := by
        rw [List.isEmpty_eq_false_iff, ne_eq, List.drop_eq_nil_iff]
        omega
      have hmod : (keys.drop laneWidth).length % laneWidth = keys.length % laneWidth := by
        rw [List.length_drop]
        exact (Nat.mod_eq_sub_mod (Nat.le_of_lt hlong)).symm
      have hnext := ih (i + 1) (by rw [ht, hmod])
      have hfull := Lane.full_lane_first key _ hlen
      have hkeys : (keys.take laneWidth ++ keys.drop laneWidth).idxOf? key =
          ((keys.take laneWidth).idxOf? key).or
            (((keys.drop laneWidth).idxOf? key).map (· + (keys.take laneWidth).length)) :=
        List.findIdx?_append
      rw [List.take_append_drop, hlen] at hkeys
      rw [hrest, if_neg Bool.false_ne_true, hfull, hnext, hkeys]
      cases (keys.take laneWidth).idxOf? key with
      | some b => rfl
      | none =>
        have hshift : (fun b => (i + 1) * laneWidth + b) =
            (i * laneWidth + ·) ∘ (· + laneWidth) := by
          funext b
          simp only [Function.comp, Nat.succ_mul]
          omega
        rw [Option.none_or, Option.map_map, ← hshift]
    · have hle : keys.length ≤ laneWidth := Nat.le_of_not_lt hlong
      have htail : tail = (1 <<< keys.length) - 1 := by
        rw [ht]
        split
        · next h0 =>
          have hw : keys.length = laneWidth := by
            unfold laneWidth at *
            omega
          rw [hw]
        · next h0 =>
          have hlt : keys.length < laneWidth := by
            unfold laneWidth at *
            omega
          rw [Nat.mod_eq_of_lt hlt]
      rw [List.drop_eq_nil_of_le hle, List.take_of_length_le hle, List.isEmpty_nil, if_pos rfl,
        htail, Lane.filled_lane_first key keys hle]
      cases keys.idxOf? key with
      | some b => rfl
      | none =>
        unfold chunks
        rfl

/-- A place that is taken stays, so the table holds first places. -/
theorem tableFrom_first (table : Std.HashMap Tag Nat) (i : Nat) (ts : List Tag) (t : Tag) :
    (tableFrom table i ts)[t]? = table[t]?.or ((ts.idxOf? t).map (i + ·)) := by
  induction ts generalizing table i with
  | nil => simp [tableFrom]
  | cons u us ih =>
    rw [tableFrom, ih, Std.HashMap.getElem?_insertIfNew, List.idxOf?_cons]
    by_cases hu : u = t
    · subst hu
      cases h : table[u]? with
      | some p =>
        have hm : u ∈ table := Std.HashMap.mem_iff_isSome_getElem?.mpr (by rw [h]; rfl)
        simp [hm]
      | none =>
        have hm : u ∉ table := fun hm => by
          have := Std.HashMap.mem_iff_isSome_getElem?.mp hm
          rw [h] at this
          cases this
        simp [hm]
    · have hb : (u == t) = false := by simpa using hu
      have hshift : (fun p => i + 1 + p) = (i + ·) ∘ (· + 1) := by
        funext p
        simp only [Function.comp]
        omega
      simp only [hb, hshift, Bool.false_eq_true, false_and, if_false, Option.map_map]

theorem toNat_first (candidates : List Tag) (t : Tag) :
    (candidates.map Tag.toNat).idxOf? t.toNat = candidates.idxOf? t := by
  rw [List.idxOf?, List.idxOf?, List.findIdx?_map]
  congr 1
  funext u
  rw [Function.comp, Bool.eq_iff_iff, beq_iff_eq, beq_iff_eq, tag_toNat_injective.eq_iff]

theorem lookup_first (candidates : List Tag) (s : MatchStrategy) (n : Nat) (t : Tag) :
    (ofList candidates s).lookup ((ofList candidates s).effective n) t = candidates.idxOf? t := by
  have hlanes : scan (ofList candidates s).tailMask t.toNat 0 (lanesOf candidates) =
      candidates.idxOf? t := by
    rw [lanesOf, scan_first _ _ 0 _ (by rw [tailMask, List.length_map]; rfl), toNat_first]
    simp
  have htable : (tableFrom ∅ 0 candidates)[t]? = candidates.idxOf? t := by
    rw [tableFrom_first]
    simp
  cases s with
  | map => exact htable
  | vectorized => exact hlanes
  | auto =>
    by_cases h : candidates.length ≤ maxLaneCandidates ∧ minLaneTargets ≤ n
    · have he : (ofList candidates .auto).effective n = .vectorized := if_pos h
      rw [he]
      exact hlanes
    · have he : (ofList candidates .auto).effective n = .map := if_neg h
      rw [he]
      exact htable

end StrategyMatcher

/-- The strategies agree: each of them, alone or chosen for a number of targets, finds the first
place of a tag among the candidates, if there is one. -/
theorem strategies_agree (candidates : List Tag) (s : MatchStrategy) (targets : List Tag) :
    (StrategyMatcher.ofList candidates s).matchBatch targets =
        targets.map (fun t => candidates.idxOf? t) ∧
      (∀ t, (StrategyMatcher.ofList candidates s).matchOne t = candidates.idxOf? t) ∧
      ∀ n t, (StrategyMatcher.ofList candidates s).lookup
        ((StrategyMatcher.ofList candidates s).effective n) t = candidates.idxOf? t := by
  have h := StrategyMatcher.lookup_first candidates s
  refine ⟨?_, h 1, h⟩
  rw [StrategyMatcher.matchBatch]
  apply List.map_congr_left
  intro t _
  exact h targets.length t

end TaggedPayload
