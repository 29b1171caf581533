import TaggedPayload.InvocationPath
import TaggedPayload.Proofs.Collecting
import TaggedPayload.Proofs.Text.Numerals

/-!
# Paths and their texts

Indices are written in digits only, so the points between them cut the text at the right places: a
path is read back from its text, and what is inside another path is so in the texts, too, as long as
a point ends the text of the outer one.
-/

set_option autoImplicit false

namespace TaggedPayload

namespace InvocationPath

open Text

theorem toList_text (p : InvocationPath) : p.text.toList = joined '.' (p.indices.map decimal) :=
  String.toList_ofList

theorem segments_text (p : InvocationPath) (h : p.indices ≠ []) :
    segments '.' p.text.toList = p.indices.map decimal := by
  rw [toList_text]
  apply segments_joined
  · simpa using h
  · intro s hs hpoint
    obtain ⟨i, -, rfl⟩ := List.mem_map.mp hs
    exact absurd (decimal_isDigit i '.' hpoint) (by decide)

theorem text_eq_empty_iff (p : InvocationPath) : p.text = "" ↔ p.indices = [] := by
  constructor
  · intro htext
    by_contra hne
    -- The one segment of the empty text is empty, but an index has digits.
    have hsegments := segments_text p hne
    rw [htext] at hsegments
    have hempty : [] ∈ p.indices.map decimal := by
      rw [← hsegments]
      exact List.mem_singleton_self _
    obtain ⟨i, -, hi⟩ := List.mem_map.mp hempty
    exact decimal_ne_nil i hi
  · intro h
    simp [text, h, joined]

theorem text_injective (p q : InvocationPath) (h : p.text = q.text) : p = q := by
  obtain ⟨is⟩ := p
  obtain ⟨js⟩ := q
  have hempty : is = [] ↔ js = [] := by
    rw [← text_eq_empty_iff ⟨is⟩, h, text_eq_empty_iff]
  by_cases his : is = []
  · rw [his, hempty.mp his]
  · have hjs : js ≠ [] := mt hempty.mpr his
    have hmaps : is.map decimal = js.map decimal := by
      rw [← segments_text ⟨is⟩ his, h, segments_text ⟨js⟩ hjs]
    rw [List.map_injective_iff.mpr decimal_injective hmaps]

/-! ## Reading -/

theorem not_numeral_nil (n : Nat) : ¬ Numeral [] n := by
  rintro ⟨ds, hds | hds, hne, -⟩
  · exact hne hds.symm
  · cases hds

theorem mapM_readSize (ss : List (List Char)) (is : List Nat) :
    ss.mapM readSize = .ok is ↔ List.Forall₂ Numeral ss is := by
  simp only [mapM_ok_iff, readSize_ok_iff]

theorem ofText_ok_iff (s : String) (p : InvocationPath) :
    ofText s = .ok p ↔
      s = "" ∧ p.indices = [] ∨ List.Forall₂ Numeral (segments '.' s.toList) p.indices := by
  obtain ⟨is⟩ := p
  by_cases hs : s = ""
  · subst hs
    have hnone : ¬ List.Forall₂ Numeral (segments '.' "".toList) is := by
      rintro (_ | ⟨hi, -⟩)
      exact not_numeral_nil _ hi
    have hread : ofText "" = .ok ⟨[]⟩ := rfl
    rw [hread, or_iff_left hnone]
    simp [eq_comm]
  · have hread : ofText s = ((segments '.' s.toList).mapM readSize).map fun is => ⟨is⟩ := by
      rw [ofText]
      split
      next hnil => exact absurd (String.toList_eq_nil_iff.mp hnil) hs
      next => rfl
    rw [hread, ← mapM_readSize]
    cases (segments '.' s.toList).mapM readSize <;> simp [Except.map, hs]

theorem ofText_text (p : InvocationPath) (h : ∀ i ∈ p.indices, i < 2 ^ 64) :
    ofText p.text = .ok p := by
  rw [ofText_ok_iff]
  by_cases hp : p.indices = []
  · exact .inl ⟨(text_eq_empty_iff p).mpr hp, hp⟩
  · right
    rw [segments_text p hp, List.forall₂_map_left_iff, List.forall₂_same]
    exact fun i hi => numeral_decimal i (h i hi)

theorem exists_ofText_iff (s : String) :
    (∃ p, ofText s = .ok p) ↔ s = "" ∨ ∀ seg ∈ segments '.' s.toList, ∃ i, Numeral seg i := by
  simp only [ofText_ok_iff, exists_or]
  apply or_congr
  · constructor
    · rintro ⟨p, hs, -⟩
      exact hs
    · exact fun hs => ⟨⟨[]⟩, hs, rfl⟩
  · rw [← exists_forall₂_iff]
    constructor
    · rintro ⟨p, hp⟩
      exact ⟨p.indices, hp⟩
    · rintro ⟨is, his⟩
      exact ⟨⟨is⟩, his⟩

/-! ## One path inside another -/

theorem text_inside (p q : InvocationPath) (hq : q.indices ≠ []) (is : List Nat) (his : is ≠ [])
    (h : p.indices = q.indices ++ is) : p.text = q.text ++ "." ++ (InvocationPath.mk is).text := by
  apply String.toList_inj.mp
  have hpoint : ".".toList = ['.'] := rfl
  simp only [String.toList_append, toList_text, h, List.map_append, hpoint]
  rw [joined_append (by simpa using hq) (by simpa using his)]
  simp

/-- A text that starts with another one and a point has the segments of that one first. -/
theorem inside_of_text (p q : InvocationPath) (hq : q.indices ≠ []) (rest : String)
    (h : p.text = q.text ++ "." ++ rest) : q.indices <+: p.indices := by
  have hp : p.indices ≠ [] := fun hp => by
    have hempty := (text_eq_empty_iff p).mpr hp
    rw [h] at hempty
    simp at hempty
  have hsegments : p.indices.map decimal = q.indices.map decimal ++ segments '.' rest.toList := by
    have hpoint : ".".toList = ['.'] := rfl
    rw [← segments_text p hp, h, String.toList_append, String.toList_append, hpoint,
      List.append_assoc, List.singleton_append, segments_append, segments_text q hq]
  obtain ⟨is, js, hsplit, his, -⟩ := List.map_eq_append_iff.mp hsegments
  obtain rfl := List.map_injective_iff.mpr decimal_injective his
  exact ⟨js, hsplit.symm⟩

theorem isWithin_iff (p q : InvocationPath) :
    p.isWithin q = true ↔
      q.indices = [] ∨ p.text = q.text ∨ ∃ rest, p.text = q.text ++ "." ++ rest := by
  rw [isWithin, List.isPrefixOf_iff_prefix]
  constructor
  · rintro ⟨is, his⟩
    by_cases hq : q.indices = []
    · exact .inl hq
    · by_cases hempty : is = []
      · obtain ⟨qs⟩ := q
        obtain ⟨ps⟩ := p
        simp_all
      · exact .inr (.inr ⟨_, text_inside p q hq is hempty his.symm⟩)
  · rintro (hq | heq | ⟨rest, hrest⟩)
    · rw [hq]
      exact List.nil_prefix
    · obtain rfl := text_injective p q heq
      exact List.prefix_rfl
    · by_cases hq : q.indices = []
      · rw [hq]
        exact List.nil_prefix
      · exact inside_of_text p q hq rest hrest

/-- A path of indices below `2 ^ 64` is read back from its text. A text is read if and only if it is
empty or each of its segments is an index, and then as the path of these indices; its segments are
what its points separate. A path is inside another one just if the other one is empty, has the same
text, or has a text that the path's goes on from with a point. -/
theorem text_faithful (p q : InvocationPath) (s : String) :
    ((∀ i ∈ p.indices, i < 2 ^ 64) → ofText p.text = .ok p) ∧
    (ofText s = .ok p ↔
      s = "" ∧ p.indices = [] ∨ List.Forall₂ Numeral (segments '.' s.toList) p.indices) ∧
    ((∃ r, ofText s = .ok r) ↔ s = "" ∨ ∀ seg ∈ segments '.' s.toList, ∃ i, Numeral seg i) ∧
    (∀ segs, segments '.' s.toList = segs ↔
      segs ≠ [] ∧ (∀ seg ∈ segs, '.' ∉ seg) ∧ joined '.' segs = s.toList) ∧
    (p.isWithin q = true ↔
      q.indices = [] ∨ p.text = q.text ∨ ∃ rest, p.text = q.text ++ "." ++ rest) :=
  ⟨ofText_text p, ofText_ok_iff s p, exists_ofText_iff s, fun _ => segments_eq_iff,
    isWithin_iff p q⟩

/-- The largest index behind a plain one, written plainly and with a sign and zeros; one more is no
index any longer, and what starts with a one is not inside `1`. -/
theorem text_faithful_extremes :
    let p : InvocationPath := ⟨[10, 2 ^ 64 - 1]⟩
    (∀ i ∈ p.indices, i < 2 ^ 64) ∧ p.text = "10.18446744073709551615" ∧
      ofText p.text = .ok p ∧ ofText "+10.0018446744073709551615" = .ok p ∧
      (¬ ∀ seg ∈ segments '.' "10.18446744073709551616".toList, ∃ i, Numeral seg i) ∧
      ¬ ∃ rest, p.text = (InvocationPath.root 1).text ++ "." ++ rest := by
  intro p
  have hbound : ∀ i ∈ p.indices, i < 2 ^ 64 := by decide
  obtain ⟨hback, -, -, -, hwithin⟩ := text_faithful p (root 1) ""
  obtain ⟨-, -, hread, -⟩ := text_faithful p p "10.18446744073709551616"
  have hlarge : ofText "10.18446744073709551616" = .error .tooLarge := by decide +kernel
  refine ⟨hbound, by decide +kernel, hback hbound, by decide +kernel, ?_, ?_⟩
  · intro hall
    obtain ⟨r, hr⟩ := hread.mpr (.inr hall)
    rw [hlarge] at hr
    cases hr
  · intro hrest
    have houtside : p.isWithin (root 1) = false := by decide
    rw [hwithin.mpr (.inr (.inr hrest))] at houtside
    cases houtside

end InvocationPath

end TaggedPayload
