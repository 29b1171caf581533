import TaggedPayload.Yaml.Value

/-!
# Keys of mappings

The value of a document names no key twice, in any mapping at any depth. Keys are compared with
their tags, so two strings can be different keys of one mapping and still be the same text; without
tags the texts differ as well.
-/

set_option autoImplicit false

namespace TaggedPayload.Yaml

namespace Value

/-- Neither a collection nor tagged. -/
def isScalar : Value → Bool
  | sequence _ => false
  | mapping _ => false
  | tagged _ _ => false
  | _ => true

inductive Proper : Value → Prop
  | scalar (v : Value) (h : v.isScalar = true) : Proper v
  | sequence (xs : List Value) (h : ∀ x ∈ xs, Proper x) : Proper (sequence xs)
  | mapping (es : List (Value × Value)) (hdiffer : keysDiffer es = true)
      (hkeys : ∀ e ∈ es, Proper e.1) (hvalues : ∀ e ∈ es, Proper e.2) : Proper (mapping es)
  | tagged (name : String) (v : Value) (h : Proper v) : Proper (tagged name v)

theorem Proper.entries {es : List (Value × Value)} (h : Proper (.mapping es)) :
    keysDiffer es = true ∧ ∀ e ∈ es, Proper e.2 := by
  cases h with
  | scalar v h => cases h
  | mapping es hdiffer _ hvalues => exact ⟨hdiffer, hvalues⟩

theorem Proper.untagged {v : Value} (h : Proper v) : Proper v.untagged := by
  induction h with
  | tagged name v _ ih => exact ih
  | scalar v h =>
    cases v with
    | tagged name v => cases h
    | _ => exact .scalar _ h
  | sequence xs h => exact .sequence xs h
  | mapping es hdiffer hkeys hvalues => exact .mapping es hdiffer hkeys hvalues

/-! ## Readings -/

section

variable {α β : Type}

def Yields (r : Reading α) (P : α → Prop) : Prop :=
  ∀ left a left', r left = some (a, left') → P a

variable {P : α → Prop} {Q : β → Prop}

theorem yields_true (r : Reading α) : Yields r fun _ => True :=
  fun _ _ _ _ => trivial

theorem yields_failure : Yields failure P := by
  intro left a left' h
  cases h

theorem yields_pure (a : α) (h : P a) : Yields (pure a) P := by
  intro left b left' hb
  cases hb
  exact h

theorem yields_bind (r : Reading α) (k : α → Reading β) (hr : Yields r P)
    (hk : ∀ a, P a → Yields (k a) Q) : Yields (r >>= k) Q := by
  intro left b left' h
  obtain ⟨⟨a, middle⟩, ha, hb⟩ := Option.bind_eq_some_iff.mp h
  exact hk a (hr left a middle ha) middle b left' hb

theorem yields_mapM (f : α → Reading β) (xs : List α) (h : ∀ x, Yields (f x) Q) :
    Yields (xs.mapM f) fun ys => ∀ y ∈ ys, Q y := by
  induction xs with
  | nil => exact yields_pure [] (by simp)
  | cons x xs ih =>
    rw [List.mapM_cons]
    refine yields_bind _ _ (h x) fun y hy => ?_
    refine yields_bind _ _ ih fun ys hys => ?_
    exact yields_pure _ (List.forall_mem_cons.mpr ⟨hy, hys⟩)

end

/-! ## Values of nodes -/

theorem floatOrString_scalar (s : String) : (floatOrString s).isScalar = true := by
  rw [floatOrString]
  split
  · rfl
  · cases float? s <;> rfl

theorem bareValue_scalar (s : String) (style : ScalarStyle) (v : Value)
    (h : bareValue s style = some v) : v.isScalar = true := by
  rw [bareValue] at h
  split at h
  · rw [plainValue] at h
    -- Each kind that the text can be written as.
    repeat' split at h
    all_goals first
      | cases h; rfl
      | cases h; exact floatOrString_scalar s
      | cases h
  · cases h
    rfl

theorem kindValue_scalar (tag : NodeTag) (s : String) (style : ScalarStyle) (v : Value)
    (h : kindValue tag s style = some v) : v.isScalar = true := by
  rw [kindValue] at h
  repeat' split at h
  all_goals first
    | exact bareValue_scalar s style v h
    | obtain ⟨_, -, rfl⟩ := Option.map_eq_some_iff.mp h; rfl
    | cases h; rfl
    | cases h

theorem withTag_proper (tag : Option NodeTag) (v : Value) (h : Proper v) :
    Yields (withTag tag v) Proper := by
  rw [withTag]
  split
  · exact yields_pure v h
  · split
    · exact yields_failure
    · exact yields_pure _ (.tagged _ v h)

theorem ofScalar_proper (s : String) (style : ScalarStyle) (tag : Option NodeTag) :
    Yields (ofScalar s style tag) Proper := by
  rw [ofScalar]
  split
  · intro left v left' h
    obtain ⟨v', hv, heq⟩ := Option.map_eq_some_iff.mp h
    cases heq
    exact .scalar v (kindValue_scalar _ s style v hv)
  · refine yields_bind _ _ (P := Proper) ?_ fun v hv => withTag_proper tag v hv
    intro left v left' h
    obtain ⟨v', hv, heq⟩ := Option.map_eq_some_iff.mp h
    cases heq
    exact .scalar v (bareValue_scalar s style v hv)

theorem ofNode_proper (d : Document) (depth : Nat) (n : Node) :
    Yields (ofNode d depth n) Proper := by
  induction depth generalizing n with
  | zero =>
    rw [ofNode]
    refine yields_bind _ _ (yields_true (follow d n)) fun n' _ => ?_
    split
    · exact ofScalar_proper _ _ _
    · exact yields_failure
  | succ depth ih =>
    rw [ofNode]
    refine yields_bind _ _ (yields_true (follow d n)) fun n' _ => ?_
    split
    · exact ofScalar_proper _ _ _
    · refine yields_bind _ _ (yields_mapM _ _ ih) fun xs hxs => ?_
      exact withTag_proper _ _ (.sequence xs hxs)
    · have hentry (e : Node × Node) :
          Yields (do return (← ofNode d depth e.1, ← ofNode d depth e.2))
            fun e : Value × Value => Proper e.1 ∧ Proper e.2 := by
        refine yields_bind _ _ (ih e.1) fun k hk => ?_
        refine yields_bind _ _ (ih e.2) fun v hv => ?_
        exact yields_pure (k, v) ⟨hk, hv⟩
      refine yields_bind _ _ (yields_mapM _ _ hentry) fun es hes => ?_
      split
      next hdiffer =>
        refine withTag_proper _ _ (.mapping es hdiffer ?_ ?_)
        · exact fun e he => (hes e he).1
        · exact fun e he => (hes e he).2
      next => exact yields_failure
    · exact yields_failure

/-- No mapping in the value of a document names a key twice. -/
theorem ofDocument?_proper (d : Document) (v : Value) (h : ofDocument? d = some v) : Proper v := by
  obtain ⟨r, hr, hv⟩ := Option.map_eq_some_iff.mp h
  rw [← hv]
  exact ofNode_proper d Node.nestingLimit d.root d.aliasLimit r.1 r.2 hr

/-! ## Texts of keys -/

theorem string?_untagged (v : Value) (s : String) (hv : v.untagged = v) (h : v.string? = some s) :
    v = .string s := by
  rw [string?, hv] at h
  split at h
  · cases h
    rfl
  · cases h

/-- The texts of the keys that are strings, without their tags. -/
def keyTexts (es : List (Value × Value)) : List String :=
  es.filterMap fun e => e.1.string?

/-- Keys without tags are different texts. -/
theorem keyTexts_nodup (es : List (Value × Value)) (h : keysDiffer es = true)
    (hplain : ∀ e ∈ es, e.1.untagged = e.1) : (keyTexts es).Nodup := by
  induction es with
  | nil => exact .nil
  | cons e es ih =>
    obtain ⟨he, hes⟩ := List.forall_mem_cons.mp hplain
    rw [keysDiffer, Bool.and_eq_true, Bool.not_eq_true'] at h
    have hrest := ih h.2 hes
    have hcons : keyTexts (e :: es) = e.1.string?.toList ++ keyTexts es := by
      rw [keyTexts, List.filterMap_cons]
      cases e.1.string? <;> rfl
    rw [hcons]
    cases hkey : e.1.string? with
    | none => exact hrest
    | some s =>
      refine List.nodup_cons.mpr ⟨?_, hrest⟩
      intro hmem
      obtain ⟨f, hf, hfkey⟩ := List.mem_filterMap.mp hmem
      have hsame : same e.1 f.1 = true := by
        rw [string?_untagged e.1 s he hkey, string?_untagged f.1 s (hes f hf) hfkey, same]
        exact beq_self_eq_true s
      exact List.any_eq_false.mp h.1 f hf hsame

end Value

end TaggedPayload.Yaml
