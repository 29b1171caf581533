/-!
# Segments

A text cut at each occurrence of a separator. There is one segment more than there are separators,
so a text without any is one segment, and joining the segments gives the text back.
-/

set_option autoImplicit false

namespace TaggedPayload.Text

def segments (separator : Char) : List Char → List (List Char)
  | [] => [[]]
  | c :: cs =>
    if c = separator then [] :: segments separator cs
    else
      match segments separator cs with
      | [] => [[c]]
      | s :: ss => (c :: s) :: ss

def joined (separator : Char) : List (List Char) → List Char
  | [] => []
  | [s] => s
  | s :: ss => s ++ separator :: joined separator ss

theorem segments_ne_nil (separator : Char) (cs : List Char) : segments separator cs ≠ [] := by
  cases cs with
  | nil => simp [segments]
  | cons c cs =>
    by_cases h : c = separator
    · simp [segments, h]
    · simp only [segments, h, if_false]
      split <;> simp

theorem joined_cons {separator : Char} {s : List Char} {ss : List (List Char)} (h : ss ≠ []) :
    joined separator (s :: ss) = s ++ separator :: joined separator ss := by
  cases ss with
  | nil => exact absurd rfl h
  | cons t ts => rfl

theorem joined_segments (separator : Char) (cs : List Char) :
    joined separator (segments separator cs) = cs := by
  induction cs with
  | nil => rfl
  | cons c cs ih =>
    have ne := segments_ne_nil separator cs
    by_cases h : c = separator
    · simp [segments, h, joined_cons ne, ih]
    · cases hs : segments separator cs with
      | nil => exact absurd hs ne
      | cons s ss =>
        rw [hs] at ih
        have step : segments separator (c :: cs) = (c :: s) :: ss := by simp [segments, h, hs]
        rw [step, ← ih]
        cases ss <;> simp [joined]

theorem segments_append (separator : Char) (xs ys : List Char) :
    segments separator (xs ++ separator :: ys) = segments separator xs ++ segments separator ys := by
  induction xs with
  | nil => simp [segments]
  | cons x xs ih =>
    have ne := segments_ne_nil separator xs
    by_cases h : x = separator
    · simp [segments, h, ih]
    · cases hs : segments separator xs with
      | nil => exact absurd hs ne
      | cons s ss => simp [segments, h, ih, hs]

theorem segments_whole {separator : Char} {cs : List Char} (h : separator ∉ cs) :
    segments separator cs = [cs] := by
  induction cs with
  | nil => rfl
  | cons c cs ih =>
    rw [List.mem_cons, not_or] at h
    simp [segments, Ne.symm h.1, ih h.2]

theorem segments_joined {separator : Char} {ss : List (List Char)} (ne : ss ≠ [])
    (h : ∀ s ∈ ss, separator ∉ s) : segments separator (joined separator ss) = ss := by
  induction ss with
  | nil => exact absurd rfl ne
  | cons s ss ih =>
    rw [List.forall_mem_cons] at h
    by_cases hss : ss = []
    · subst hss
      exact segments_whole h.1
    · rw [joined_cons hss, segments_append, segments_whole h.1, ih hss h.2, List.singleton_append]

theorem not_mem_segment (separator : Char) (cs : List Char) :
    ∀ s ∈ segments separator cs, separator ∉ s := by
  induction cs with
  | nil => simp [segments]
  | cons c cs ih =>
    have ne := segments_ne_nil separator cs
    by_cases h : c = separator
    · simpa [segments, h] using ih
    · cases hs : segments separator cs with
      | nil => exact absurd hs ne
      | cons s ss =>
        rw [hs] at ih
        simpa [segments, h, hs, Ne.symm h] using ih

/-- The segments are the one way of cutting a text at all its separators. -/
theorem segments_eq_iff {separator : Char} {cs : List Char} {ss : List (List Char)} :
    segments separator cs = ss ↔
      ss ≠ [] ∧ (∀ s ∈ ss, separator ∉ s) ∧ joined separator ss = cs := by
  constructor
  · rintro rfl
    exact ⟨segments_ne_nil separator cs, not_mem_segment separator cs, joined_segments separator cs⟩
  · rintro ⟨ne, hss, rfl⟩
    exact segments_joined ne hss

theorem joined_append {separator : Char} {xs ys : List (List Char)} (hx : xs ≠ []) (hy : ys ≠ []) :
    joined separator (xs ++ ys) = joined separator xs ++ separator :: joined separator ys := by
  induction xs with
  | nil => exact absurd rfl hx
  | cons x xs ih =>
    have hrest : xs ++ ys ≠ [] := by simp [hy]
    rw [List.cons_append, joined_cons hrest]
    by_cases h : xs = []
    · simp [h, joined]
    · rw [ih h, joined_cons h, List.append_assoc, List.cons_append]

end TaggedPayload.Text
