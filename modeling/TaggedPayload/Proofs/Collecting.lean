import Mathlib.Data.List.Forall2

/-!
# Functions that may fail

What a result that came out says about the steps before it. Over a list, every member has to have a
result, and the results come in the order of the members.
-/

set_option autoImplicit false

namespace TaggedPayload

variable {ε α β : Type}

theorem map_eq_ok (r : Except ε α) (f : α → β) (y : β) (h : r.map f = .ok y) :
    ∃ x, r = .ok x ∧ f x = y := by
  cases r with
  | error fault => cases h
  | ok x =>
    cases h
    exact ⟨x, rfl, rfl⟩

theorem bind_eq_ok (r : Except ε α) (k : α → Except ε β) (b : β) (h : r >>= k = .ok b) :
    ∃ a, r = .ok a ∧ k a = .ok b := by
  cases r with
  | error e => cases h
  | ok a => exact ⟨a, rfl, h⟩

theorem mapM_ok_iff (f : α → Except ε β) (as : List α) (bs : List β) :
    as.mapM f = .ok bs ↔ List.Forall₂ (fun a b => f a = .ok b) as bs := by
  induction as generalizing bs with
  | nil => cases bs <;> simp [pure, Except.pure]
  | cons a as ih =>
    rw [List.mapM_cons]
    constructor
    · intro h
      obtain ⟨b, hb, h⟩ := bind_eq_ok _ _ _ h
      obtain ⟨later, hlater, h⟩ := bind_eq_ok _ _ _ h
      cases h
      exact .cons hb ((ih later).mp hlater)
    · rintro (_ | ⟨hb, hlater⟩)
      rw [hb, (ih _).mpr hlater]
      rfl

theorem mapM_some_iff (f : α → Option β) (as : List α) (bs : List β) :
    as.mapM f = some bs ↔ List.Forall₂ (fun a b => f a = some b) as bs := by
  induction as generalizing bs with
  | nil => cases bs <;> simp
  | cons a as ih =>
    rw [List.mapM_cons]
    constructor
    · intro h
      obtain ⟨b, hb, h⟩ := Option.bind_eq_some_iff.mp h
      obtain ⟨later, hlater, h⟩ := Option.bind_eq_some_iff.mp h
      cases h
      exact .cons hb ((ih later).mp hlater)
    · rintro (_ | ⟨hb, hlater⟩)
      rw [hb, (ih _).mpr hlater]
      rfl

theorem exists_forall₂_iff (R : α → β → Prop) (as : List α) :
    (∃ bs, List.Forall₂ R as bs) ↔ ∀ a ∈ as, ∃ b, R a b := by
  induction as with
  | nil => simp
  | cons a as ih =>
    rw [List.forall_mem_cons, ← ih]
    constructor
    · rintro ⟨_, _ | ⟨hb, hlater⟩⟩
      exact ⟨⟨_, hb⟩, _, hlater⟩
    · rintro ⟨⟨b, hb⟩, later, hlater⟩
      exact ⟨b :: later, .cons hb hlater⟩

end TaggedPayload
