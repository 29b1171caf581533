import TaggedPayload.Yaml.Document

/-!
# Tokens that the composer takes

Whatever a rule of the composer yields, it leaves no more tokens than it was given. A node takes at
least one token, and so does its content unless an anchor or a tag stands in front of it.
-/

set_option autoImplicit false

namespace TaggedPayload.Yaml

namespace Composer

/-! ## What is left of the tokens -/

variable {α : Type}

@[simp] theorem part_tokens (c : Composer) : c.part.tokens = c.tokens := rfl

theorem drop_length {c : Composer} {t : Token} {ts : List Token} (h : c.tokens = t :: ts) :
    c.drop.tokens.length + 1 = c.tokens.length := by
  rw [drop, h]
  rfl

theorem drop_length_le (c : Composer) : c.drop.tokens.length ≤ c.tokens.length :=
  List.drop_sublist 1 c.tokens |>.length_le

/-- Where an item starts: at once, or behind a comma. -/
theorem separated_length {c d : Composer} {first comma : Bool}
    (h : (if first then some c else if comma then some c.drop else none) = some d) :
    d.tokens.length ≤ c.tokens.length := by
  cases first <;> cases comma <;> cases h
  · exact c.drop_length_le
  · exact Nat.le_refl _
  · exact Nat.le_refl _

/-- A result for which at least `k` tokens were taken, if there is one. -/
def Takes (k : Nat) (c : Composer) (result : Option (α × Composer)) : Prop :=
  ∀ x d, result = some (x, d) → d.tokens.length + k ≤ c.tokens.length

theorem takes_none (k : Nat) (c : Composer) : Takes k c (none : Option (α × Composer)) :=
  fun _ _ h => nomatch h

theorem takes_some {k : Nat} {c d : Composer} (x : α)
    (h : d.tokens.length + k ≤ c.tokens.length) : Takes k c (some (x, d)) := by
  rintro _ _ ⟨⟩
  exact h

theorem Takes.earlier {j k : Nat} {c d : Composer} {result : Option (α × Composer)}
    (h : Takes j d result) (hd : d.tokens.length + k ≤ c.tokens.length + j) :
    Takes k c result := by
  intro x e he
  have := h x e he
  omega

theorem Takes.sequenceOf {k : Nat} {c : Composer} {items : Option (List Node × Composer)}
    (h : Takes k c items) (tag : Option NodeTag) : Takes k c (sequenceOf tag items) := by
  intro x d hx
  obtain ⟨⟨xs, e⟩, he, heq⟩ := Option.map_eq_some_iff.mp hx
  cases heq
  exact h xs e he

theorem Takes.mappingOf {k : Nat} {c : Composer} {entries : Option (List (Node × Node) × Composer)}
    (h : Takes k c entries) (tag : Option NodeTag) : Takes k c (mappingOf tag entries) := by
  intro x d hx
  obtain ⟨⟨es, e⟩, he, heq⟩ := Option.map_eq_some_iff.mp hx
  cases heq
  exact h es e he

theorem properties_length (c : Composer) :
    c.properties.2.2.tokens.length + (c.properties.1.isSome || c.properties.2.1.isSome).toNat ≤
      c.tokens.length := by
  rw [properties]
  split <;> simp [*]

/-! ## The rules -/

structure Consumes (fuel : Nat) : Prop where
  node (block indentless : Bool) (c : Composer) : Takes 1 c (node fuel block indentless c)
  content (block indentless marked : Bool) (tag : Option NodeTag) (c : Composer) :
    Takes (1 - marked.toNat) c (content fuel block indentless marked tag c)
  nodeUnless (stop : Token → Bool) (block indentless : Bool) (c : Composer) :
    Takes 0 c (nodeUnless fuel stop block indentless c)
  blockItems (done : List Node) (c : Composer) : Takes 0 c (blockItems fuel done c)
  indentlessItems (done : List Node) (c : Composer) :
    Takes (c.tokens.head? == some .blockEntry).toNat c (indentlessItems fuel done c)
  blockEntries (done : List (Node × Node)) (c : Composer) : Takes 0 c (blockEntries fuel done c)
  blockValue (c : Composer) : Takes 0 c (blockValue fuel c)
  flowItems (done : List Node) (c : Composer) : Takes 0 c (flowItems fuel done c)
  flowPair (c : Composer) : Takes 0 c (flowPair fuel c)
  flowValue (close : Token) (c : Composer) : Takes 0 c (flowValue fuel close c)
  flowEntries (done : List (Node × Node)) (c : Composer) : Takes 0 c (flowEntries fuel done c)

namespace Consumes

variable {fuel : Nat}

theorem node_succ (ih : Consumes fuel) (block indentless : Bool) (c : Composer) :
    Takes 1 c (Composer.node (fuel + 1) block indentless c) := by
  rw [Composer.node]
  split
  · next name ts hts =>
    intro n d h
    obtain ⟨number, -, heq⟩ := Option.map_eq_some_iff.mp h
    cases heq
    simp [hts]
  · have hprops := properties_length c
    generalize c.properties = p at hprops ⊢
    obtain ⟨anchor, mark, inner⟩ := p
    dsimp only at hprops ⊢
    split
    · exact takes_none 1 c
    · next tag _ =>
      split
      · have hmark : inner.tokens.length + mark.isSome.toNat ≤ c.tokens.length := by
          simpa using hprops
        exact (ih.content _ _ _ _ inner).earlier (by omega)
      · next a =>
        have hanchor : inner.tokens.length + 1 ≤ c.tokens.length := by simpa using hprops
        split
        · next n d hd =>
          have hcontent : d.tokens.length ≤ inner.tokens.length :=
            ih.content _ _ true _ (inner.nameNext a) n d hd
          exact takes_some n (Nat.le_trans (Nat.succ_le_succ hcontent) hanchor)
        · exact takes_none 1 c

theorem content_succ (ih : Consumes fuel) (block indentless marked : Bool) (tag : Option NodeTag)
    (c : Composer) :
    Takes (1 - marked.toNat) c (Composer.content (fuel + 1) block indentless marked tag c) := by
  rw [Composer.content]
  split
  · exact takes_none _ c
  · next t ts hts =>
    have hdrop := drop_length hts
    split
    · exact takes_some _ (by rw [part_tokens]; omega)
    · exact ((ih.flowItems _ _).sequenceOf tag).earlier (by rw [part_tokens]; omega)
    · exact ((ih.flowEntries _ _).mappingOf tag).earlier (by rw [part_tokens]; omega)
    · split
      · next hentry =>
        -- Nothing is dropped here, but the first item's mark is still to be taken.
        have ht : t = .blockEntry := eq_of_beq (Bool.and_eq_true_iff.mp hentry).2
        have hhead : c.part.tokens.head? = some .blockEntry := by rw [part_tokens, hts, ht]; rfl
        have hitems := (ih.indentlessItems [] c.part).sequenceOf tag
        rw [hhead] at hitems
        exact hitems.earlier (by rw [part_tokens]; simp)
      · split
        · exact ((ih.blockItems _ _).sequenceOf tag).earlier (by rw [part_tokens]; omega)
        · split
          · exact ((ih.blockEntries _ _).mappingOf tag).earlier (by rw [part_tokens]; omega)
          · split
            · next hmarked => exact takes_some _ (by simp [hmarked])
            · exact takes_none _ c

theorem nodeUnless_succ (ih : Consumes fuel) (stop : Token → Bool) (block indentless : Bool)
    (c : Composer) : Takes 0 c (Composer.nodeUnless (fuel + 1) stop block indentless c) := by
  rw [Composer.nodeUnless]
  split
  · exact takes_none 0 c
  · split
    · exact takes_some _ (by rw [part_tokens]; omega)
    · exact (ih.node block indentless c).earlier (by omega)

theorem blockItems_succ (ih : Consumes fuel) (done : List Node) (c : Composer) :
    Takes 0 c (Composer.blockItems (fuel + 1) done c) := by
  rw [Composer.blockItems]
  have hdrop := c.drop_length_le
  split
  · split
    · next x d hd =>
      have hitem := ih.nodeUnless _ _ _ _ x d hd
      exact (ih.blockItems _ d).earlier (by omega)
    · exact takes_none 0 c
  · exact takes_some _ hdrop
  · exact takes_none 0 c

theorem indentlessItems_succ (ih : Consumes fuel) (done : List Node) (c : Composer) :
    Takes (c.tokens.head? == some .blockEntry).toNat c
      (Composer.indentlessItems (fuel + 1) done c) := by
  rw [Composer.indentlessItems]
  split
  · exact takes_none _ c
  · next ts hts =>
    have hdrop := drop_length hts
    split
    · next x d hd =>
      have hitem := ih.nodeUnless _ _ _ _ x d hd
      have hone := Bool.toNat_le (c.tokens.head? == some .blockEntry)
      exact (ih.indentlessItems _ d).earlier (by omega)
    · exact takes_none _ c
  · next hother =>
    have hhead : c.tokens.head? ≠ some .blockEntry := fun h =>
      (List.head?_eq_some_iff.mp h).elim hother
    have hzero : (c.tokens.head? == some .blockEntry).toNat = 0 := by simpa using hhead
    exact takes_some _ (by omega)

theorem blockEntries_succ (ih : Consumes fuel) (done : List (Node × Node)) (c : Composer) :
    Takes 0 c (Composer.blockEntries (fuel + 1) done c) := by
  rw [Composer.blockEntries]
  have hdrop := c.drop_length_le
  split
  · exact takes_some _ hdrop
  · split
    · next k d hd =>
      have hkey := ih.nodeUnless _ _ _ _ k d hd
      split
      · next x e he =>
        have hvalue := ih.blockValue _ x e he
        exact (ih.blockEntries _ e).earlier (by omega)
      · exact takes_none 0 c
    · exact takes_none 0 c
  · exact takes_none 0 c

theorem blockValue_succ (ih : Consumes fuel) (c : Composer) :
    Takes 0 c (Composer.blockValue (fuel + 1) c) := by
  rw [Composer.blockValue]
  split
  · exact takes_none 0 c
  · exact (ih.nodeUnless _ _ _ _).earlier c.drop_length_le
  · exact takes_some _ (by rw [part_tokens]; omega)

theorem flowValue_succ (ih : Consumes fuel) (close : Token) (c : Composer) :
    Takes 0 c (Composer.flowValue (fuel + 1) close c) := by
  rw [Composer.flowValue]
  split
  · exact takes_none 0 c
  · exact (ih.nodeUnless _ _ _ _).earlier c.drop_length_le
  · exact takes_some _ (by rw [part_tokens]; omega)

/-- The key of a pair may be left out. -/
theorem pairKey (ih : Consumes fuel) {absent : Bool} {c d : Composer} {k : Node}
    (h : (if absent then some c.part.drop.skipNode
      else Composer.node fuel false false c.part) = some (k, d)) :
    d.tokens.length ≤ c.tokens.length := by
  cases absent with
  | true =>
    cases h
    exact c.part.drop_length_le
  | false => exact Nat.le_of_succ_le (ih.node _ _ c.part k d h)

theorem flowPair_succ (ih : Consumes fuel) (c : Composer) :
    Takes 0 c (Composer.flowPair (fuel + 1) c) := by
  rw [Composer.flowPair]
  split
  · exact takes_none 0 c
  · next t ts hts =>
    dsimp only
    split
    · exact takes_none 0 c
    · next k d hd =>
      have hkey := ih.pairKey hd
      split
      · next x e he =>
        have hvalue := ih.flowValue _ d x e he
        exact takes_some _ (by rw [part_tokens]; omega)
      · exact takes_none 0 c

theorem flowItems_succ (ih : Consumes fuel) (done : List Node) (c : Composer) :
    Takes 0 c (Composer.flowItems (fuel + 1) done c) := by
  rw [Composer.flowItems]
  split
  · exact takes_none 0 c
  · exact takes_some _ c.drop_length_le
  · split
    · exact takes_none 0 c
    · next d hd =>
      have hsep := separated_length hd
      have hdrop := d.drop_length_le
      split
      · exact takes_none 0 c
      · exact takes_some _ (by omega)
      · split
        · next x e he =>
          have hpair := ih.flowPair _ x e he
          exact (ih.flowItems _ e).earlier (by omega)
        · exact takes_none 0 c
      · split
        · next x e he =>
          have hitem := ih.node _ _ _ x e he
          exact (ih.flowItems _ e).earlier (by omega)
        · exact takes_none 0 c

theorem flowEntries_succ (ih : Consumes fuel) (done : List (Node × Node)) (c : Composer) :
    Takes 0 c (Composer.flowEntries (fuel + 1) done c) := by
  rw [Composer.flowEntries]
  split
  · exact takes_none 0 c
  · exact takes_some _ c.drop_length_le
  · split
    · exact takes_none 0 c
    · next d hd =>
      have hsep := separated_length hd
      have hdrop := d.drop_length_le
      split
      · exact takes_none 0 c
      · exact takes_some _ (by omega)
      · split
        · exact takes_none 0 c
        · next k e he =>
          have hkey := ih.nodeUnless _ _ _ _ k e he
          split
          · next x e' he' =>
            have hvalue := ih.flowValue _ e x e' he'
            exact (ih.flowEntries _ e').earlier (by omega)
          · exact takes_none 0 c
      · split
        · next k e he =>
          have hkey := ih.node _ _ _ k e he
          exact (ih.flowEntries _ e.part).earlier (by rw [part_tokens]; omega)
        · exact takes_none 0 c

theorem zero : Consumes 0 where
  node _ _ c := takes_none 1 c
  content _ _ _ _ c := takes_none _ c
  nodeUnless _ _ _ c := takes_none 0 c
  blockItems _ c := takes_none 0 c
  indentlessItems _ c := takes_none _ c
  blockEntries _ c := takes_none 0 c
  blockValue c := takes_none 0 c
  flowItems _ c := takes_none 0 c
  flowPair c := takes_none 0 c
  flowValue _ c := takes_none 0 c
  flowEntries _ c := takes_none 0 c

theorem succ (ih : Consumes fuel) : Consumes (fuel + 1) where
  node := ih.node_succ
  content := ih.content_succ
  nodeUnless := ih.nodeUnless_succ
  blockItems := ih.blockItems_succ
  indentlessItems := ih.indentlessItems_succ
  blockEntries := ih.blockEntries_succ
  blockValue := ih.blockValue_succ
  flowItems := ih.flowItems_succ
  flowPair := ih.flowPair_succ
  flowValue := ih.flowValue_succ
  flowEntries := ih.flowEntries_succ

end Consumes

theorem consumes (fuel : Nat) : Consumes fuel := by
  induction fuel with
  | zero => exact Consumes.zero
  | succ fuel ih => exact ih.succ

end Composer

end TaggedPayload.Yaml
