import Mathlib.Data.List.Forall2
import TaggedPayload.Layout.Document

/-!
# Layouts of a stream

Reading a text takes its documents in order. Those without content do not count; each of the others
has to be one layout. The layout of a document has the name of the document's first layout key, so
the layouts have, in order, some of the names that the documents write, and all of them just if
every document has one layout key.
-/

set_option autoImplicit false

namespace TaggedPayload

namespace Layout

/-! ## Documents -/

/-- A document counts unless its value is null. -/
def hasContent (v : Yaml.Value) : Bool :=
  match v.untagged with
  | .null => false
  | _ => true

/-- The values of the documents that count, if the text is free of faults. -/
def contents? (yaml : String) : Option (List Yaml.Value) :=
  let ds := Yaml.documents yaml
  if ds.faulty then none
  else (ds.all.mapM Yaml.Value.ofDocument?).map (·.filter hasContent)

def Stands (vs : List Yaml.Value) (ls : List Layout) : Prop :=
  List.Forall₂ (fun v l => ofValue v = .ok l) vs ls

theorem hasContent_iff (v : Yaml.Value) : hasContent v = true ↔ v.untagged ≠ .null := by
  cases hu : v.untagged <;> simp [hasContent, hu]

theorem ofDocuments_skip (d : Yaml.Document) (ds : List Yaml.Document) (v : Yaml.Value)
    (hd : Yaml.Value.ofDocument? d = some v) (hv : ¬hasContent v = true) :
    ofDocuments (d :: ds) = ofDocuments ds := by
  rw [hasContent_iff, not_not] at hv
  simp [ofDocuments, hd, hv]

theorem ofDocuments_take (d : Yaml.Document) (ds : List Yaml.Document) (v : Yaml.Value)
    (hd : Yaml.Value.ofDocument? d = some v) (hv : hasContent v = true) :
    ofDocuments (d :: ds) = do
      let l ← ofValue v
      return l :: (← ofDocuments ds) := by
  rw [hasContent_iff] at hv
  cases hu : v.untagged with
  | null => exact absurd hu hv
  | _ => simp [ofDocuments, hd, hu]

theorem cons_eq_ok {ε α : Type} (first : Except ε α) (rest : Except ε (List α)) (as : List α) :
    (do return (← first) :: (← rest)) = Except.ok as ↔
      ∃ a bs, first = .ok a ∧ rest = .ok bs ∧ a :: bs = as := by
  cases first with
  | error e => simp [bind, Except.bind]
  | ok a =>
    cases rest with
    | error e => simp [bind, Except.bind]
    | ok bs => simp [bind, Except.bind, pure, Except.pure]

/-- Reading succeeds just if all documents have values and those with content are layouts. -/
theorem ofDocuments_ok_iff (ds : List Yaml.Document) (ls : List Layout) :
    ofDocuments ds = .ok ls ↔
      ∃ vs, ds.mapM Yaml.Value.ofDocument? = some vs ∧ Stands (vs.filter hasContent) ls := by
  induction ds generalizing ls with
  | nil => simp [ofDocuments, Stands, eq_comm]
  | cons d ds ih =>
    cases hd : Yaml.Value.ofDocument? d with
    | none => simp [ofDocuments, hd]
    | some v =>
      have hvs : (d :: ds).mapM Yaml.Value.ofDocument? =
          (ds.mapM Yaml.Value.ofDocument?).map (v :: ·) := by
        rw [List.mapM_cons, hd]
        cases ds.mapM Yaml.Value.ofDocument? <;> rfl
      rw [hvs]
      by_cases hv : hasContent v = true
      · rw [ofDocuments_take d ds v hd hv, cons_eq_ok]
        simp only [ih, Option.map_eq_some_iff]
        constructor
        · rintro ⟨l, rest, hl, ⟨vs, hvs, hrest⟩, rfl⟩
          refine ⟨v :: vs, ⟨vs, hvs, rfl⟩, ?_⟩
          rw [List.filter_cons_of_pos hv]
          exact .cons hl hrest
        · rintro ⟨_, ⟨vs, hvs, rfl⟩, hall⟩
          rw [List.filter_cons_of_pos hv] at hall
          obtain ⟨l, rest, hl, hrest, rfl⟩ := List.forall₂_cons_left_iff.mp hall
          exact ⟨l, rest, hl, ⟨vs, hvs, hrest⟩, rfl⟩
      · rw [ofDocuments_skip d ds v hd hv, ih]
        simp [hv]

theorem readAll_ok_iff (yaml : String) (ls : List Layout) :
    readAll yaml = .ok ls ↔ ∃ vs, contents? yaml = some vs ∧ Stands vs ls := by
  rw [readAll, contents?]
  by_cases hf : (Yaml.documents yaml).faulty = true
  · simp only [hf]
    cases ofDocuments (Yaml.documents yaml).all <;> simp [bind, Except.bind]
  · simp only [if_neg hf, bind_pure, ofDocuments_ok_iff, Option.map_eq_some_iff,
      exists_exists_and_eq_and]

/-! ## Names -/

def namesIn : Yaml.Value → List String
  | .mapping es => es.filterMap fun e => nameOfKey? e.1
  | _ => []

theorem header?_name (es : List (Yaml.Value × Yaml.Value)) :
    (header? es).map (·.1) = (es.filterMap fun e => nameOfKey? e.1).head? := by
  rw [header?, List.map_findSome?, List.head?_filterMap]
  congr 1
  funext e
  rw [Function.comp_apply, Option.map_map]
  exact Option.map_id'

def Named (name : String) (r : Except LayoutFault Layout) : Prop :=
  ∀ l, r = .ok l → l.name = name

theorem named_bind {α : Type} (name : String) (r : Except LayoutFault α)
    (rest : α → Except LayoutFault Layout) (h : ∀ a, Named name (rest a)) :
    Named name (r >>= rest) := by
  cases r with
  | error fault => intro l hl; cases hl
  | ok a => exact h a

theorem named_mk (name : String) (kind : LayoutKind) (program : AccountKey) (tag : Tag)
    (fields : List Field) : Named name (pure ⟨name, kind, program, tag, fields⟩) := by
  intro l hl
  cases hl
  rfl

theorem ofBody_named (name : String) (b : Body) : Named name (ofBody name b) := by
  simp only [ofBody]
  -- Whatever the members are read as, each branch ends with the name that was given.
  repeat' first
    | exact named_mk _ _ _ _ _
    | refine named_bind _ _ _ fun _ => ?_
    | split

theorem ofValue_name (v : Yaml.Value) (l : Layout) (h : ofValue v = .ok l) :
    (namesIn v).head? = some l.name := by
  cases v with
  | mapping es =>
    rw [namesIn, ← header?_name]
    rw [ofValue] at h
    cases hh : header? es with
    | none =>
      rw [hh] at h
      cases h
    | some header =>
      simp only [hh] at h
      split at h
      · cases h
      split at h
      · exact congrArg some (named_bind _ _ _ (ofBody_named _) l h).symm
      · cases h
  | _ => cases h

def OneKeyEach (vs : List Yaml.Value) : Prop :=
  ∀ v ∈ vs, (namesIn v).length = 1

/-- Where each list starts with a name, these names are a part of all of them, in order. -/
theorem heads_sublist {α β : Type} (names : α → List β) (vs : List α) (ns : List β)
    (h : List.Forall₂ (fun v n => (names v).head? = some n) vs ns) :
    ns.Sublist (vs.flatMap names) := by
  induction h with
  | nil => exact .slnil
  | cons hv _ ih =>
    obtain ⟨later, hlater⟩ := List.head?_eq_some_iff.mp hv
    rw [List.flatMap_cons, hlater]
    exact .cons_cons _ (ih.trans (List.sublist_append_right later _))

/-- They are all of the names just if no list has a second one. -/
theorem heads_eq_iff {α β : Type} (names : α → List β) (vs : List α) (ns : List β)
    (h : List.Forall₂ (fun v n => (names v).head? = some n) vs ns) :
    ns = vs.flatMap names ↔ ∀ v ∈ vs, (names v).length = 1 := by
  induction h with
  | nil => simp
  | @cons v n vs ns hv hrest ih =>
    obtain ⟨later, hlater⟩ := List.head?_eq_some_iff.mp hv
    rw [List.forall_mem_cons, ← ih, List.flatMap_cons, hlater, List.cons_append, List.cons.injEq,
      List.length_cons, Nat.add_eq_right, List.length_eq_zero_iff]
    constructor
    · rintro ⟨-, hns⟩
      -- A second name would make the rest too long.
      have hlen := (heads_sublist names vs ns hrest).length_le
      rw [hns, List.length_append] at hlen
      have hnil : later = [] := List.length_eq_zero_iff.mp (by omega)
      exact ⟨hnil, by rw [hns, hnil, List.nil_append]⟩
    · rintro ⟨rfl, hns⟩
      exact ⟨rfl, hns⟩

/-- The layouts' names start the names of the documents. -/
theorem stands_names (vs : List Yaml.Value) (ls : List Layout) (h : Stands vs ls) :
    List.Forall₂ (fun v n => (namesIn v).head? = some n) vs (ls.map (·.name)) :=
  List.forall₂_map_right_iff.mpr (h.imp ofValue_name)

end Layout

end TaggedPayload
