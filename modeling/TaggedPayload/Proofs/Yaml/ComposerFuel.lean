import TaggedPayload.Proofs.Yaml.TokensTaken

/-!
# The fuel of the composer

Every rule of the composer takes a token or hands over to another one, and not more than three times
in a row. So two runs agree if both have fuel for four rules for each token, whatever they end with:
where there is no document, that is a fault of the text and not of the fuel.
-/

set_option autoImplicit false

namespace TaggedPayload.Yaml

namespace Composer

/-- With these fuels every rule agrees where both suffice: four for each token that is left, and the
place of the rule in the chain from `nodeUnless` over `node` and `content` to the collections. -/
structure Agree (f g : Nat) : Prop where
  node (block indentless : Bool) (c : Composer) (h : 4 * c.tokens.length + 2 < min f g) :
    node f block indentless c = node g block indentless c
  content (block indentless marked : Bool) (tag : Option NodeTag) (c : Composer)
    (h : 4 * c.tokens.length + 1 < min f g) :
    content f block indentless marked tag c = content g block indentless marked tag c
  nodeUnless (stop : Token → Bool) (block indentless : Bool) (c : Composer)
    (h : 4 * c.tokens.length + 3 < min f g) :
    nodeUnless f stop block indentless c = nodeUnless g stop block indentless c
  blockItems (done : List Node) (c : Composer) (h : 4 * c.tokens.length < min f g) :
    blockItems f done c = blockItems g done c
  indentlessItems (done : List Node) (c : Composer) (h : 4 * c.tokens.length < min f g) :
    indentlessItems f done c = indentlessItems g done c
  blockEntries (done : List (Node × Node)) (c : Composer) (h : 4 * c.tokens.length < min f g) :
    blockEntries f done c = blockEntries g done c
  blockValue (c : Composer) (h : 4 * c.tokens.length < min f g) : blockValue f c = blockValue g c
  flowItems (done : List Node) (c : Composer) (h : 4 * c.tokens.length + 3 < min f g) :
    flowItems f done c = flowItems g done c
  flowPair (c : Composer) (h : 4 * c.tokens.length + 3 < min f g) : flowPair f c = flowPair g c
  flowValue (close : Token) (c : Composer) (h : 4 * c.tokens.length < min f g) :
    flowValue f close c = flowValue g close c
  flowEntries (done : List (Node × Node)) (c : Composer) (h : 4 * c.tokens.length + 3 < min f g) :
    flowEntries f done c = flowEntries g done c

namespace Agree

variable {f g : Nat}

theorem node_succ (ih : Agree f g) (block indentless : Bool) (c : Composer)
    (h : 4 * c.tokens.length + 2 < min (f + 1) (g + 1)) :
    Composer.node (f + 1) block indentless c = Composer.node (g + 1) block indentless c := by
  have hprops := properties_length c
  rw [Composer.node, Composer.node]
  split
  · rfl
  · generalize c.properties = p at hprops ⊢
    obtain ⟨anchor, mark, inner⟩ := p
    have hinner : inner.tokens.length ≤ c.tokens.length := Nat.le_of_add_right_le hprops
    have hcontent (marked : Bool) (tag : Option NodeTag) (d : Composer)
        (hd : d.tokens.length ≤ c.tokens.length) :=
      ih.content block indentless marked tag d (by omega)
    dsimp only
    split
    · rfl
    · split
      · exact hcontent _ _ inner hinner
      · next a => rw [hcontent true _ (inner.nameNext a) hinner]

theorem content_succ (ih : Agree f g) (block indentless marked : Bool) (tag : Option NodeTag)
    (c : Composer) (h : 4 * c.tokens.length + 1 < min (f + 1) (g + 1)) :
    Composer.content (f + 1) block indentless marked tag c =
      Composer.content (g + 1) block indentless marked tag c := by
  rw [Composer.content, Composer.content]
  split
  · rfl
  · next t ts hts =>
    have hdrop := drop_length hts
    -- The items without indentation start at the same token; all other collections behind it.
    have hhere : 4 * c.part.tokens.length < min f g := by rw [part_tokens]; omega
    have hbehind : 4 * c.drop.part.tokens.length + 3 < min f g := by rw [part_tokens]; omega
    rw [ih.flowItems _ _ hbehind, ih.flowEntries _ _ hbehind, ih.indentlessItems _ _ hhere,
      ih.blockItems _ _ (by omega), ih.blockEntries _ _ (by omega)]

theorem nodeUnless_succ (ih : Agree f g) (stop : Token → Bool) (block indentless : Bool)
    (c : Composer) (h : 4 * c.tokens.length + 3 < min (f + 1) (g + 1)) :
    Composer.nodeUnless (f + 1) stop block indentless c =
      Composer.nodeUnless (g + 1) stop block indentless c := by
  rw [Composer.nodeUnless, Composer.nodeUnless, ih.node _ _ _ (by omega)]

theorem blockItems_succ (ih : Agree f g) (done : List Node) (c : Composer)
    (h : 4 * c.tokens.length < min (f + 1) (g + 1)) :
    Composer.blockItems (f + 1) done c = Composer.blockItems (g + 1) done c := by
  rw [Composer.blockItems, Composer.blockItems]
  split
  · next ts hts =>
    have hdrop := drop_length hts
    rw [ih.nodeUnless _ _ _ c.drop (by omega)]
    split
    · next x d hd =>
      have hitem := (consumes g).nodeUnless _ _ _ _ x d hd
      exact ih.blockItems _ d (by omega)
    · rfl
  · rfl
  · rfl

theorem indentlessItems_succ (ih : Agree f g) (done : List Node) (c : Composer)
    (h : 4 * c.tokens.length < min (f + 1) (g + 1)) :
    Composer.indentlessItems (f + 1) done c = Composer.indentlessItems (g + 1) done c := by
  rw [Composer.indentlessItems, Composer.indentlessItems]
  split
  · rfl
  · next ts hts =>
    have hdrop := drop_length hts
    rw [ih.nodeUnless _ _ _ c.drop (by omega)]
    split
    · next x d hd =>
      have hitem := (consumes g).nodeUnless _ _ _ _ x d hd
      exact ih.indentlessItems _ d (by omega)
    · rfl
  · rfl

theorem blockEntries_succ (ih : Agree f g) (done : List (Node × Node)) (c : Composer)
    (h : 4 * c.tokens.length < min (f + 1) (g + 1)) :
    Composer.blockEntries (f + 1) done c = Composer.blockEntries (g + 1) done c := by
  rw [Composer.blockEntries, Composer.blockEntries]
  split
  · rfl
  · next ts hts =>
    have hdrop := drop_length hts
    rw [ih.nodeUnless _ _ _ c.drop (by omega)]
    split
    · next k d hd =>
      have hkey := (consumes g).nodeUnless _ _ _ _ k d hd
      rw [ih.blockValue d (by omega)]
      split
      · next x e he =>
        have hvalue := (consumes g).blockValue d x e he
        exact ih.blockEntries _ e (by omega)
      · rfl
    · rfl
  · rfl

theorem blockValue_succ (ih : Agree f g) (c : Composer)
    (h : 4 * c.tokens.length < min (f + 1) (g + 1)) :
    Composer.blockValue (f + 1) c = Composer.blockValue (g + 1) c := by
  rw [Composer.blockValue, Composer.blockValue]
  split
  · rfl
  · next ts hts =>
    have hdrop := drop_length hts
    exact ih.nodeUnless _ _ _ c.drop (by omega)
  · rfl

theorem flowValue_succ (ih : Agree f g) (close : Token) (c : Composer)
    (h : 4 * c.tokens.length < min (f + 1) (g + 1)) :
    Composer.flowValue (f + 1) close c = Composer.flowValue (g + 1) close c := by
  rw [Composer.flowValue, Composer.flowValue]
  split
  · rfl
  · next ts hts =>
    have hdrop := drop_length hts
    exact ih.nodeUnless _ _ _ c.drop (by omega)
  · rfl

theorem flowPair_succ (ih : Agree f g) (c : Composer)
    (h : 4 * c.tokens.length + 3 < min (f + 1) (g + 1)) :
    Composer.flowPair (f + 1) c = Composer.flowPair (g + 1) c := by
  rw [Composer.flowPair, Composer.flowPair]
  split
  · rfl
  · next t ts hts =>
    rw [ih.node _ _ c.part (by rw [part_tokens]; omega)]
    dsimp only
    split
    · rfl
    · next k d hd =>
      have hkey := (consumes g).pairKey hd
      rw [ih.flowValue _ d (by omega)]

theorem flowItems_succ (ih : Agree f g) (done : List Node) (c : Composer)
    (h : 4 * c.tokens.length + 3 < min (f + 1) (g + 1)) :
    Composer.flowItems (f + 1) done c = Composer.flowItems (g + 1) done c := by
  rw [Composer.flowItems, Composer.flowItems]
  split
  · rfl
  · rfl
  · split
    · rfl
    · next d hd =>
      have hsep := separated_length hd
      split
      · rfl
      · rfl
      · next ts hts =>
        have hdrop := drop_length hts
        rw [ih.flowPair d.drop (by omega)]
        split
        · next x e he =>
          have hpair := (consumes g).flowPair _ x e he
          exact ih.flowItems _ e (by omega)
        · rfl
      · rw [ih.node _ _ d (by omega)]
        split
        · next x e he =>
          have hitem := (consumes g).node _ _ d x e he
          exact ih.flowItems _ e (by omega)
        · rfl

theorem flowEntries_succ (ih : Agree f g) (done : List (Node × Node)) (c : Composer)
    (h : 4 * c.tokens.length + 3 < min (f + 1) (g + 1)) :
    Composer.flowEntries (f + 1) done c = Composer.flowEntries (g + 1) done c := by
  rw [Composer.flowEntries, Composer.flowEntries]
  split
  · rfl
  · rfl
  · split
    · rfl
    · next d hd =>
      have hsep := separated_length hd
      split
      · rfl
      · rfl
      · next ts hts =>
        have hdrop := drop_length hts
        rw [ih.nodeUnless _ _ _ d.drop (by omega)]
        split
        · rfl
        · next k e he =>
          have hkey := (consumes g).nodeUnless _ _ _ _ k e he
          rw [ih.flowValue _ e (by omega)]
          split
          · next x e' he' =>
            have hvalue := (consumes g).flowValue _ e x e' he'
            exact ih.flowEntries _ e' (by omega)
          · rfl
      · rw [ih.node _ _ d (by omega)]
        split
        · next k e he =>
          have hkey := (consumes g).node _ _ d k e he
          exact ih.flowEntries _ e.part (by rw [part_tokens]; omega)
        · rfl

theorem of_min_eq_zero (h : min f g = 0) : Agree f g := by
  constructor <;> intros <;> omega

theorem succ (ih : Agree f g) : Agree (f + 1) (g + 1) where
  node := ih.node_succ
  content := ih.content_succ
  nodeUnless := ih.nodeUnless_succ
  blockItems := ih.blockItems_succ
  indentlessItems := ih.indentlessItems_succ
  blockEntries := ih.blockEntries_succ
  blockValue := ih.blockValue_succ
  flowItems := ih.flowItems_succ
  flowPair := ih.flowPair_succ
  flowValue := ih.flowValue_succ
  flowEntries := ih.flowEntries_succ

end Agree

theorem agree (f g : Nat) : Agree f g := by
  induction f generalizing g with
  | zero => exact Agree.of_min_eq_zero (Nat.zero_min g)
  | succ f ih =>
    cases g with
    | zero => exact Agree.of_min_eq_zero (Nat.min_zero _)
    | succ g => exact (ih g).succ

end Composer

/-! ## Documents -/

/-- A node that starts a document is the same with any fuel that suffices for its tokens. -/
theorem rootedDocument_fuel (bases : TagBases) (ts : List Token) (fuel : Nat)
    (h : 4 * ts.length + 2 < fuel) :
    rootedDocument bases ts =
      (Composer.node fuel true false ⟨ts, bases, [], [], 0⟩).map fun (n, c) =>
        (⟨n, c.targets, c.parts⟩, c.tokens) := by
  have hboth : 4 * ts.length + 2 < min (4 * ts.length + 8) fuel := by omega
  rw [rootedDocument, (Composer.agree _ fuel).node true false ⟨ts, bases, [], [], 0⟩ hboth]

theorem rootedDocument_length (bases : TagBases) (ts rest : List Token) (d : Document)
    (h : rootedDocument bases ts = some (d, rest)) : rest.length < ts.length := by
  obtain ⟨⟨n, c⟩, hc, heq⟩ := Option.map_eq_some_iff.mp h
  cases heq
  exact (Composer.consumes _).node true false _ n c hc

theorem directives?_length (ds : Directives) (ts rest : List Token) (bases : TagBases)
    (h : directives? ds ts = some (bases, rest)) : rest.length ≤ ts.length := by
  fun_induction directives? ds ts with
  | case1 ds major minor ts hknown ih => exact Nat.le_succ_of_le (ih h)
  | case2 => cases h
  | case3 => cases h
  | case4 ds handle base ts hnew ih => exact Nat.le_succ_of_le (ih h)
  | case5 =>
    cases h
    exact Nat.le_refl _

theorem markedDocument_length (ts rest : List Token) (d : Document)
    (h : markedDocument ts = some (d, rest)) : rest.length < ts.length := by
  rw [markedDocument] at h
  split at h
  · next bases t rest' hd =>
    have hdirectives := directives?_length _ _ _ _ hd
    simp only [List.length_cons] at hdirectives
    split at h
    · cases h
      simp only [List.length_cons]
      omega
    · have hroot := rootedDocument_length _ _ _ _ h
      simp only [List.length_cons] at hroot
      omega
  · cases h

theorem continuation_length (first : Bool) (ts rest : List Token) (d : Document)
    (h : continuation first ts = .document d rest) : rest.length < ts.length := by
  have hstart : (if first then ts else ts.dropWhile (· == .documentEnd)).length ≤ ts.length := by
    split
    · exact Nat.le_refl _
    · exact (List.dropWhile_sublist _).length_le
  rw [continuation] at h
  split at h
  · cases h
  · cases h
  · next t us _ hus =>
    rw [hus] at hstart
    have hnode {e : Document} {vs : List Token}
        (hnext : (if first && !t.opensDocument then rootedDocument .usual (t :: us)
          else markedDocument (t :: us)) = some (e, vs)) : vs.length < (t :: us).length := by
      split at hnext
      · exact rootedDocument_length _ _ _ _ hnext
      · exact markedDocument_length _ _ _ hnext
    dsimp only at h
    split at h
    · next e vs hnext =>
      cases h
      exact Nat.lt_of_succ_lt (Nat.lt_of_lt_of_le (hnode hnext) hstart)
    · next e v vs _ hnext =>
      cases h
      exact Nat.lt_of_lt_of_le (hnode hnext) hstart
    · cases h

theorem documentsOf_fuel (f g : Nat) (first : Bool) (ts : List Token) (hf : ts.length < f)
    (hg : ts.length < g) : documentsOf f first ts = documentsOf g first ts := by
  induction f generalizing g first ts with
  | zero => omega
  | succ f ih =>
    obtain ⟨g, rfl⟩ := Nat.exists_eq_succ_of_ne_zero (Nat.ne_zero_of_lt hg)
    rw [documentsOf, documentsOf]
    split
    · rfl
    · rfl
    · next d rest hd =>
      have hrest := continuation_length first ts rest d hd
      rw [ih g false rest (by omega) (by omega)]

/-- The documents of a text are those that its tokens have with any fuel that suffices. -/
theorem documents_fuel (s : String) (fuel : Nat) (h : (tokens s.toList).length < fuel) :
    documents s = documentsOf fuel true (tokens s.toList) :=
  documentsOf_fuel _ fuel true _ (Nat.lt_succ_self _) h

end TaggedPayload.Yaml
