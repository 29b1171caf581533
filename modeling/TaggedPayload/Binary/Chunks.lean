/-!
# Contiguous chunks

A list cut into pieces of one size; only the last piece may be shorter. The pieces in order make up
the list again.
-/

set_option autoImplicit false

namespace TaggedPayload

variable {α : Type}

/-- Pieces of `size` elements; a size of zero gives no pieces. -/
def chunks (size : Nat) (xs : List α) : List (List α) :=
  if _h : size = 0 ∨ xs = [] then []
  else xs.take size :: chunks size (xs.drop size)
termination_by xs.length
decreasing_by
  have : 0 < xs.length := List.length_pos_iff.2 fun e => _h (.inr e)
  simp only [List.length_drop]
  omega

theorem flatten_chunks {size : Nat} (pos : 0 < size) (xs : List α) :
    (chunks size xs).flatten = xs := by
  induction xs using chunks.induct size with
  | case1 xs h =>
    rcases h with h | h
    · omega
    · subst h; unfold chunks; simp
  | case2 xs h ih =>
    rw [chunks, dif_neg h, List.flatten_cons, ih, List.take_append_drop]

end TaggedPayload
