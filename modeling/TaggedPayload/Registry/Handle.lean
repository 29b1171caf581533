import TaggedPayload.Decoder.Basic

/-!
# Decoder handles

One decoder may stand in several places of a registry. A handle is a decoder with an identity: equal
identities mean the same decoder, and two decoders with equal settings but different identities are
two. Handles that callers share and handles that a registry makes from layouts are numbered apart.
-/

set_option autoImplicit false

namespace TaggedPayload

inductive HandleId
  /-- A decoder of a caller. -/
  | shared (n : Nat)
  /-- A decoder that a registry made from a layout. -/
  | loaded (n : Nat)
deriving DecidableEq, Repr

structure Handle where
  id : HandleId
  decoder : Decoder

namespace Handle

def name (h : Handle) : String := h.decoder.name

def program (h : Handle) : AccountKey := h.decoder.program

def isSame (g h : Handle) : Bool := g.id == h.id

/-- The program that a decoder belongs to by its own account. -/
def scope (h : Handle) : Option AccountKey :=
  if h.program.isZero then none else some h.program

end Handle

/-- Equal identities among these handles mean the same decoder. -/
def Coherent (hs : List Handle) : Prop :=
  ∀ g ∈ hs, ∀ h ∈ hs, g.id = h.id → g = h

end TaggedPayload
