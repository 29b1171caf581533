/-!
# Blank characters

Trimming removes exactly the characters with the Unicode property White_Space. The byte order mark
and the zero-width characters do not have it and stay.
-/

set_option autoImplicit false

namespace TaggedPayload.Text

/-- The property White_Space, by code point. -/
def isBlank (c : Char) : Bool :=
  let n := c.toNat
  (9 ≤ n && n ≤ 13) || n == 0x20 || n == 0x85 || n == 0xA0 || n == 0x1680 ||
    (0x2000 ≤ n && n ≤ 0x200A) || n == 0x2028 || n == 0x2029 || n == 0x202F ||
    n == 0x205F || n == 0x3000

def trim (cs : List Char) : List Char :=
  ((cs.dropWhile isBlank).reverse.dropWhile isBlank).reverse

def trimmed (s : String) : String :=
  String.ofList (trim s.toList)

/-- No blank stands at either end. -/
def Tight (cs : List Char) : Prop :=
  (∀ c, cs.head? = some c → isBlank c = false) ∧ ∀ c, cs.getLast? = some c → isBlank c = false

theorem dropWhile_blank {cs : List Char} (h : ∀ c, cs.head? = some c → isBlank c = false) :
    cs.dropWhile isBlank = cs := by
  cases cs with
  | nil => rfl
  | cons c cs => exact List.dropWhile_cons_of_neg (by simp [h c rfl])

theorem head_dropWhile_blank (cs : List Char) (c : Char)
    (h : (cs.dropWhile isBlank).head? = some c) : isBlank c = false := by
  have hnot := List.head?_dropWhile_not isBlank cs
  rwa [h] at hnot

theorem trim_tight (cs : List Char) : Tight (trim cs) := by
  constructor
  · intro c hc
    -- Blanks are taken off the end of a text whose first character is not blank.
    obtain ⟨blanks, hblanks⟩ := List.dropWhile_suffix (l := (cs.dropWhile isBlank).reverse) isBlank
    have hsplit := congrArg List.reverse hblanks
    rw [List.reverse_append, List.reverse_reverse] at hsplit
    rw [trim] at hc
    apply head_dropWhile_blank cs c
    rw [← hsplit, List.head?_append, hc, Option.some_or]
  · intro c hc
    rw [trim, List.getLast?_reverse] at hc
    exact head_dropWhile_blank _ c hc

/-- Trimming takes blanks off, and nothing else. -/
theorem trim_surrounded (cs : List Char) :
    ∃ before after, (∀ c ∈ before, isBlank c) ∧ (∀ c ∈ after, isBlank c) ∧
      cs = before ++ trim cs ++ after := by
  have hblank (cs : List Char) : ∀ c ∈ cs.takeWhile isBlank, isBlank c :=
    List.all_eq_true.mp List.all_takeWhile
  refine ⟨cs.takeWhile isBlank, ((cs.dropWhile isBlank).reverse.takeWhile isBlank).reverse,
    hblank cs, fun c hc => ?_, ?_⟩
  · exact hblank _ c (List.mem_reverse.mp hc)
  · rw [trim, List.append_assoc, ← List.reverse_append, List.takeWhile_append_dropWhile,
      List.reverse_reverse, List.takeWhile_append_dropWhile]

theorem trim_of_tight {cs : List Char} (h : Tight cs) : trim cs = cs := by
  obtain ⟨hhead, hlast⟩ := h
  have hreverse : cs.reverse.dropWhile isBlank = cs.reverse :=
    dropWhile_blank fun c hc => hlast c (by rwa [← List.head?_reverse])
  rw [trim, dropWhile_blank hhead, hreverse, List.reverse_reverse]

theorem trim_trim (cs : List Char) : trim (trim cs) = trim cs :=
  trim_of_tight (trim_tight cs)

/-- What follows `lead` in `cs`, when `cs` starts with it. -/
def after? : List Char → List Char → Option (List Char)
  | [], cs => some cs
  | _ :: _, [] => none
  | l :: ls, c :: cs => if l = c then after? ls cs else none

theorem after?_eq_some_iff {lead cs rest : List Char} :
    after? lead cs = some rest ↔ cs = lead ++ rest := by
  induction lead generalizing cs with
  | nil => simp [after?]
  | cons l ls ih =>
    cases cs with
    | nil => simp [after?]
    | cons c cs =>
      by_cases h : l = c
      · simp [after?, h, ih]
      · simp [after?, h, Ne.symm h]

end TaggedPayload.Text
