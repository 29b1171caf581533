import Mathlib.Data.List.Induction
import TaggedPayload.Layout.Document
import TaggedPayload.Proofs.Collecting
import TaggedPayload.Proofs.Yaml.DistinctKeys

/-!
# Texts of fields

The entries of a mapping make the names and types of fields, as texts. An entry with a new name is
one more field at the end. An entry with the name of an earlier one gives that field its type; the
keys of the two then differ by a tag, since a mapping does not name a key twice.
-/

set_option autoImplicit false

namespace TaggedPayload

abbrev Yaml.Entry := Yaml.Value × Yaml.Value

namespace Layout

open Yaml.Value (keyTexts)

/-! ## Fields as texts -/

theorem insertField_new (f : String × String) (fs : List (String × String))
    (h : f.1 ∉ fs.map (·.1)) : Body.insertField f fs = fs ++ [f] := by
  induction fs with
  | nil => rfl
  | cons g fs ih =>
    rw [List.map_cons, List.mem_cons, not_or] at h
    rw [Body.insertField, if_neg (Ne.symm h.1), ih h.2, List.cons_append]

theorem insertField_names (f : String × String) (fs : List (String × String))
    (h : f.1 ∈ fs.map (·.1)) : (Body.insertField f fs).map (·.1) = fs.map (·.1) := by
  induction fs with
  | nil => cases h
  | cons g fs ih =>
    rw [Body.insertField]
    by_cases hg : g.1 = f.1
    · rw [if_pos hg, List.map_cons, List.map_cons, hg]
    · rw [List.map_cons, List.mem_cons] at h
      rw [if_neg hg, List.map_cons, List.map_cons, ih (h.resolve_left (Ne.symm hg))]

theorem mem_insertField (f g : String × String) (fs : List (String × String))
    (hdistinct : (fs.map (·.1)).Nodup) (hg : g ∈ Body.insertField f fs) :
    g = f ∨ g ∈ fs ∧ g.1 ≠ f.1 := by
  induction fs with
  | nil => exact .inl (List.mem_singleton.mp hg)
  | cons first fs ih =>
    rw [List.map_cons, List.nodup_cons] at hdistinct
    rw [Body.insertField] at hg
    by_cases hfirst : first.1 = f.1
    · rw [if_pos hfirst, List.mem_cons] at hg
      refine hg.imp_right fun hmem => ⟨List.mem_cons_of_mem _ hmem, ?_⟩
      intro hname
      exact hdistinct.1 (hfirst ▸ hname ▸ List.mem_map_of_mem hmem)
    · rw [if_neg hfirst, List.mem_cons] at hg
      rcases hg with rfl | hmem
      · exact .inr ⟨List.mem_cons_self, hfirst⟩
      · exact (ih hdistinct.2 hmem).imp_right fun h => ⟨List.mem_cons_of_mem _ h.1, h.2⟩

/-- The text of the type in the last entry with the name. -/
def typeText? (es : List Yaml.Entry) (name : String) : Option String :=
  (es.reverse.find? fun e => e.1.string? == some name).bind (·.2.string?)

def Spells (e : Yaml.Entry) (f : String × String) : Prop :=
  e.1.string? = some f.1 ∧ e.2.string? = some f.2

structure Gathers (es : List Yaml.Entry) (fs : List (String × String)) : Prop where
  texts : ∀ e ∈ es, ∃ f, Spells e f
  names : fs.map (·.1) = (keyTexts es).eraseDups
  distinct : (fs.map (·.1)).Nodup
  types : ∀ f ∈ fs, typeText? es f.1 = some f.2
  each : (keyTexts es).Nodup → List.Forall₂ Spells es fs

theorem text_ok_iff (layout : String) (v : Yaml.Value) (s : String) :
    Body.text layout v = .ok s ↔ v.string? = some s := by
  rw [Body.text]
  cases v.string? <;> simp

theorem fieldOf_ok (layout : String) (fs fs' : List (String × String)) (e : Yaml.Entry)
    (h : Body.fieldOf layout fs e = .ok fs') : ∃ f, Spells e f ∧ fs' = Body.insertField f fs := by
  obtain ⟨name, hname, h⟩ := bind_eq_ok _ _ _ h
  obtain ⟨ty, hty, h⟩ := bind_eq_ok _ _ _ h
  cases h
  exact ⟨(name, ty), ⟨(text_ok_iff ..).mp hname, (text_ok_iff ..).mp hty⟩, rfl⟩

theorem keyTexts_snoc (es : List Yaml.Entry) (e : Yaml.Entry) (name : String)
    (h : e.1.string? = some name) : keyTexts (es ++ [e]) = keyTexts es ++ [name] := by
  rw [keyTexts, List.filterMap_append, List.filterMap_cons, h]
  rfl

theorem typeText?_snoc (es : List Yaml.Entry) (e : Yaml.Entry) (f : String × String)
    (h : Spells e f) (name : String) :
    typeText? (es ++ [e]) name = if f.1 = name then some f.2 else typeText? es name := by
  rw [typeText?, List.reverse_append, List.reverse_singleton, List.singleton_append,
    List.find?_cons, h.1]
  by_cases hname : f.1 = name
  · simp [hname, h.2]
  · have hother : (f.1 == name) = false := beq_false_of_ne hname
    simp [hname, hother, typeText?]

theorem Gathers.insert (es : List Yaml.Entry) (fs : List (String × String)) (e : Yaml.Entry)
    (f : String × String) (h : Gathers es fs) (he : Spells e f) :
    Gathers (es ++ [e]) (Body.insertField f fs) := by
  have hkeys := keyTexts_snoc es e f.1 he.1
  have hmem : f.1 ∈ fs.map (·.1) ↔ f.1 ∈ keyTexts es := by
    rw [h.names, List.mem_eraseDups]
  have hnames : (Body.insertField f fs).map (·.1) = (keyTexts (es ++ [e])).eraseDups := by
    rw [hkeys, List.eraseDups_append, ← h.names]
    by_cases hold : f.1 ∈ fs.map (·.1)
    · rw [insertField_names f fs hold]
      simp [List.removeAll, hmem.mp hold]
    · rw [insertField_new f fs hold]
      simp [List.removeAll, mt hmem.mpr hold, List.eraseDups_cons]
  refine ⟨?_, hnames, ?_, ?_, ?_⟩
  · rw [List.forall_mem_append]
    exact ⟨h.texts, by simpa using ⟨f.1, f.2, he⟩⟩
  · by_cases hold : f.1 ∈ fs.map (·.1)
    · rw [insertField_names f fs hold]
      exact h.distinct
    · rw [insertField_new f fs hold, List.map_append]
      exact (List.perm_append_singleton f.1 _).nodup_iff.mpr
        (List.nodup_cons.mpr ⟨hold, h.distinct⟩)
  · intro g hg
    rw [typeText?_snoc es e f he]
    rcases mem_insertField f g fs h.distinct hg with rfl | ⟨hg, hne⟩
    · rw [if_pos rfl]
    · rw [if_neg (Ne.symm hne), h.types g hg]
  · intro hdistinct
    rw [hkeys, List.nodup_append] at hdistinct
    obtain ⟨hes, -, hfresh⟩ := hdistinct
    have hnew : f.1 ∉ fs.map (·.1) := by
      rw [hmem]
      intro hold
      exact hfresh f.1 hold f.1 (List.mem_singleton_self _) rfl
    rw [insertField_new f fs hnew]
    exact List.rel_append (h.each hes) (.cons he .nil)

theorem foldlM_gathers (layout : String) (es : List Yaml.Entry) (fs : List (String × String))
    (h : es.foldlM (Body.fieldOf layout) [] = .ok fs) : Gathers es fs := by
  induction es using List.reverseRecOn generalizing fs with
  | nil =>
    cases h
    exact ⟨by simp, rfl, .nil, by simp, fun _ => .nil⟩
  | append_singleton es e ih =>
    rw [List.foldlM_append] at h
    obtain ⟨before, hbefore, h⟩ := bind_eq_ok _ _ _ h
    obtain ⟨after, hafter, h⟩ := bind_eq_ok _ _ _ h
    cases h
    obtain ⟨f, hf, rfl⟩ := fieldOf_ok layout before fs e hafter
    exact (ih before hbefore).insert es before e f hf

/-- The entries that fields are written in; null stands for none. -/
def entries? (v : Yaml.Value) : Option (List Yaml.Entry) :=
  match v.untagged with
  | .mapping es => some es
  | .null => some []
  | _ => none

theorem fieldsOf_gathers (layout : String) (v : Yaml.Value) (fs : List (String × String))
    (h : Body.fieldsOf layout v = .ok fs) : ∃ es, entries? v = some es ∧ Gathers es fs := by
  rw [Body.fieldsOf] at h
  split at h
  next es hes => exact ⟨es, by simp [entries?, hes], foldlM_gathers layout es fs h⟩
  next hnull =>
    cases h
    exact ⟨[], by simp [entries?, hnull], by simp, rfl, .nil, by simp, fun _ => .nil⟩
  next => cases h

end Layout

end TaggedPayload
