import TaggedPayload.Proofs.Layout.FieldTexts
import TaggedPayload.Proofs.Layout.Stream
import TaggedPayload.Proofs.Text.Utf8Shortest

/-!
# Fields of a document

The fields of a layout are those of the entries in its document's `fields` mapping. The other
members of the body do not touch them, nor does the name, which is one more member.
-/

set_option autoImplicit false

namespace TaggedPayload

namespace Layout

open Yaml.Value (keyTexts)

/-! ## The members of a layout -/

def memberNamed? (name : String) (ms : List Yaml.Entry) : Option Yaml.Value :=
  (ms.find? fun m => m.1.string? == some name).map (·.2)

theorem memberNamed?_cons (name : String) (m : Yaml.Entry) (ms : List Yaml.Entry) :
    memberNamed? name (m :: ms) =
      if m.1.string? = some name then some m.2 else memberNamed? name ms := by
  by_cases h : m.1.string? = some name <;> simp [memberNamed?, h]

/-- What taking a member in does to the fields. -/
theorem member_fields (layout : String) (b b' : Body) (m : Yaml.Entry)
    (h : Body.member layout b m = .ok b') :
    if m.1.string? = some "fields" then
      b.fields = none ∧ ∃ fs, Body.fieldsOf layout m.2 = .ok fs ∧ b'.fields = some fs
    else b'.fields = b.fields := by
  obtain ⟨key, hkey, h⟩ := bind_eq_ok _ _ _ h
  rw [(text_ok_iff ..).mp hkey]
  split at h
  -- The name, the kind, the program and the tag leave the fields as they are.
  iterate 4
    · obtain ⟨place, -, h⟩ := bind_eq_ok _ _ _ h
      cases h
      rfl
  · obtain ⟨place, hplace, h⟩ := bind_eq_ok _ _ _ h
    cases h
    rw [Body.fill] at hplace
    split at hplace
    · cases hplace
    next hfree =>
      obtain ⟨fs, hfs, rfl⟩ := map_eq_ok _ _ _ hplace
      exact ⟨by simpa using hfree, fs, hfs, rfl⟩
  next _ _ _ _ hother =>
    cases h
    rw [if_neg fun hfields => hother (Option.some.inj hfields)]

/-- Of the members named `fields` there is one at most, and it gives the fields. -/
theorem foldlM_member (layout : String) (ms : List Yaml.Entry) (b b' : Body)
    (h : ms.foldlM (Body.member layout) b = .ok b') :
    (b.fields.isSome → b'.fields = b.fields) ∧
      (b.fields = none → ∀ fs, b'.fields = some fs →
        ∃ v, memberNamed? "fields" ms = some v ∧ Body.fieldsOf layout v = .ok fs) := by
  induction ms generalizing b with
  | nil =>
    cases h
    exact ⟨fun _ => rfl, fun hnone fs hfs => by simp [hnone] at hfs⟩
  | cons m ms ih =>
    obtain ⟨b₁, hfirst, hrest⟩ := bind_eq_ok _ _ _ h
    have hfields := member_fields layout b b₁ m hfirst
    obtain ⟨hkept, hlater⟩ := ih b₁ hrest
    rw [memberNamed?_cons]
    by_cases hname : m.1.string? = some "fields"
    · rw [if_pos hname] at hfields ⊢
      obtain ⟨hfree, fs₁, hread, hset⟩ := hfields
      refine ⟨fun hsome => by simp [hfree] at hsome, fun _ fs hfs => ?_⟩
      rw [hkept (by simp [hset]), hset] at hfs
      cases hfs
      exact ⟨m.2, rfl, hread⟩
    · rw [if_neg hname] at hfields ⊢
      rw [hfields] at hkept hlater
      exact ⟨hkept, hlater⟩

theorem isNameKey_text (key : Yaml.Value) (h : Body.isNameKey key = true) :
    key.string? = some "layout" := by
  cases key with
  | string s => rw [eq_of_beq h]; rfl
  | _ => cases h

theorem memberNamed?_set (layout : String) (ms : List Yaml.Entry) :
    memberNamed? "fields" (ms.map fun m =>
      if Body.isNameKey m.1 then (m.1, .string layout) else m) = memberNamed? "fields" ms := by
  induction ms with
  | nil => rfl
  | cons m ms ih =>
    rw [List.map_cons, memberNamed?_cons, memberNamed?_cons, ih]
    by_cases hkey : Body.isNameKey m.1 = true
    · rw [if_pos hkey, isNameKey_text m.1 hkey]
      rfl
    · rw [if_neg hkey]

theorem memberNamed?_added (layout : String) (ms : List Yaml.Entry) :
    memberNamed? "fields" (ms ++ [(.string "layout", .string layout)]) =
      memberNamed? "fields" ms := by
  induction ms with
  | nil => rfl
  | cons m ms ih => rw [List.cons_append, memberNamed?_cons, memberNamed?_cons, ih]

/-- The name as a member does not touch the fields. -/
theorem memberNamed?_withName (layout : String) (ms : List Yaml.Entry) :
    memberNamed? "fields" (Body.withName layout ms) = memberNamed? "fields" ms := by
  rw [Body.withName]
  split
  · exact memberNamed?_set layout ms
  · exact memberNamed?_added layout ms

theorem ofBody_fields (name : String) (b : Body) (l : Layout) (h : ofBody name b = .ok l) :
    ∃ texts, b.fields = some texts ∧ texts.mapM (readField name) = .ok l.fields := by
  rw [ofBody] at h
  cases hb : b.fields with
  | none =>
    rw [hb] at h
    cases h
  | some texts =>
    rw [hb] at h
    obtain ⟨_, htexts, h⟩ := bind_eq_ok _ _ _ h
    cases htexts
    obtain ⟨fields, hfields, h⟩ := bind_eq_ok _ _ _ h
    refine ⟨texts, rfl, ?_⟩
    -- Whatever program and tag are read as.
    repeat' split at h
    all_goals first
      | cases h; exact hfields
      | cases h

def Means (f : String × String) (g : Field) : Prop :=
  g.1 = f.1 ∧ FieldType.ofText f.2 = .ok g.2

theorem readField_ok (layout : String) (f : String × String) (g : Field)
    (h : readField layout f = .ok g) : Means f g := by
  rw [readField] at h
  split at h
  next ty hty =>
    cases h
    exact ⟨rfl, hty⟩
  next => cases h

def bodyOf? : Yaml.Value → Option (List Yaml.Entry)
  | .mapping es =>
    match header? es with
    | some (_, .mapping ms) => some ms
    | _ => none
  | _ => none

def fieldEntries? (v : Yaml.Value) : Option (List Yaml.Entry) :=
  ((bodyOf? v).bind (memberNamed? "fields")).bind entries?

theorem ofValue_fields (v : Yaml.Value) (l : Layout) (h : ofValue v = .ok l) :
    ∃ es texts, fieldEntries? v = some es ∧ Gathers es texts ∧
      List.Forall₂ Means texts l.fields := by
  cases v with
  | mapping es =>
    rw [ofValue] at h
    split at h
    · cases h
    next name body hheader =>
      split at h
      · cases h
      split at h
      next ms =>
        obtain ⟨b, hbody, hlayout⟩ := bind_eq_ok _ _ _ h
        obtain ⟨texts, hb, htexts⟩ := ofBody_fields name b l hlayout
        obtain ⟨value, hvalue, hread⟩ := (foldlM_member name _ _ b hbody).2 rfl texts hb
        rw [memberNamed?_withName] at hvalue
        obtain ⟨fes, hfes, hgathers⟩ := fieldsOf_gathers name value texts hread
        refine ⟨fes, texts, ?_, hgathers, ((mapM_ok_iff _ _ _).mp htexts).imp (readField_ok name)⟩
        simp [fieldEntries?, bodyOf?, hheader, hvalue, hfes]
      · cases h
  | _ => cases h

/-- The entry has the field's name, and its value is the text of the field's type. -/
def Writes (e : Yaml.Entry) (f : Field) : Prop :=
  e.1.string? = some f.1 ∧ ∃ text, e.2.string? = some text ∧ FieldType.ofText text = .ok f.2

/-- The fields are those of the entries: one for each name, in the place of the first entry with the
name and of the type in the last. -/
structure Describes (es : List Yaml.Entry) (fs : List Field) : Prop where
  texts : ∀ e ∈ es, e.1.string?.isSome ∧ e.2.string?.isSome
  names : fs.map (·.1) = (keyTexts es).eraseDups
  distinct : (fs.map (·.1)).Nodup
  types : ∀ f ∈ fs, ∃ text, typeText? es f.1 = some text ∧ FieldType.ofText text = .ok f.2
  /-- With different names, each entry is a field. -/
  each : (keyTexts es).Nodup → List.Forall₂ Writes es fs
  /-- Names are different unless one of them is tagged. -/
  untagged : (∀ e ∈ es, e.1.untagged = e.1) → (keyTexts es).Nodup

section

variable {α β : Type} {R : α → β → Prop} {as : List α} {bs : List β}

theorem partner_right (h : List.Forall₂ R as bs) (b : β) (hb : b ∈ bs) : ∃ a ∈ as, R a b := by
  induction h with
  | nil => cases hb
  | cons hab _ ih =>
    rcases List.mem_cons.mp hb with rfl | hb
    · exact ⟨_, List.mem_cons_self, hab⟩
    · obtain ⟨a, ha, hab⟩ := ih hb
      exact ⟨a, List.mem_cons_of_mem _ ha, hab⟩

theorem partner_left (h : List.Forall₂ R as bs) (a : α) (ha : a ∈ as) : ∃ b ∈ bs, R a b :=
  partner_right h.flip a ha

end

theorem means_names (texts : List (String × String)) (fs : List Field)
    (h : List.Forall₂ Means texts fs) : fs.map (·.1) = texts.map (·.1) := by
  induction h with
  | nil => rfl
  | cons hfirst _ ih => rw [List.map_cons, List.map_cons, hfirst.1, ih]

theorem writes_of_means (es : List Yaml.Entry) (texts : List (String × String)) (fs : List Field)
    (hspells : List.Forall₂ Spells es texts) (hmeans : List.Forall₂ Means texts fs) :
    List.Forall₂ Writes es fs := by
  induction hspells generalizing fs with
  | nil =>
    cases hmeans
    exact .nil
  | @cons e text es texts he _ ih =>
    obtain ⟨f, later, hf, hlater, rfl⟩ := List.forall₂_cons_left_iff.mp hmeans
    exact .cons ⟨hf.1 ▸ he.1, text.2, he.2, hf.2⟩ (ih later hlater)

theorem Gathers.describes (es : List Yaml.Entry) (texts : List (String × String))
    (fs : List Field) (h : Gathers es texts) (hmeans : List.Forall₂ Means texts fs)
    (hdiffer : Yaml.Value.keysDiffer es = true) : Describes es fs where
  texts e he := by
    obtain ⟨f, hname, htype⟩ := h.texts e he
    simp [hname, htype]
  names := (means_names texts fs hmeans).trans h.names
  distinct := by
    rw [means_names texts fs hmeans]
    exact h.distinct
  types f hf := by
    obtain ⟨text, htext, hname, htype⟩ := partner_right hmeans f hf
    exact ⟨text.2, by rw [hname, h.types text htext], htype⟩
  each hdistinct := writes_of_means es texts fs (h.each hdistinct) hmeans
  untagged := Yaml.Value.keyTexts_nodup es hdiffer

/-! ## Documents -/

theorem contents?_some (yaml : String) (vs : List Yaml.Value) (h : contents? yaml = some vs) :
    (Yaml.documents yaml).faulty = false ∧
      ∃ all, List.Forall₂ (fun d v => Yaml.Value.ofDocument? d = some v)
        (Yaml.documents yaml).all all ∧ vs = all.filter hasContent := by
  rw [contents?] at h
  split at h
  · cases h
  next hsound =>
    obtain ⟨all, hall, rfl⟩ := Option.map_eq_some_iff.mp h
    exact ⟨eq_false_of_ne_true hsound, all, (mapM_some_iff _ _ all).mp hall, rfl⟩

theorem contents?_proper (yaml : String) (vs : List Yaml.Value) (h : contents? yaml = some vs)
    (v : Yaml.Value) (hv : v ∈ vs) : v.Proper := by
  obtain ⟨-, all, hall, rfl⟩ := contents?_some yaml vs h
  obtain ⟨d, -, hd⟩ := partner_right hall v (List.mem_of_mem_filter hv)
  exact Yaml.Value.ofDocument?_proper d v hd

theorem bodyOf?_proper (v : Yaml.Value) (hv : v.Proper) (ms : List Yaml.Entry)
    (h : bodyOf? v = some ms) : (Yaml.Value.mapping ms).Proper := by
  cases v with
  | mapping es =>
    rw [bodyOf?] at h
    split at h
    next name body hheader =>
      cases h
      obtain ⟨e, he, hname⟩ := List.exists_of_findSome?_eq_some hheader
      obtain ⟨name', -, heq⟩ := Option.map_eq_some_iff.mp hname
      exact (Prod.mk.inj heq).2 ▸ hv.entries.2 e he
    · cases h
  | _ => cases h

theorem entries?_differ (v : Yaml.Value) (hv : v.Proper) (es : List Yaml.Entry)
    (h : entries? v = some es) : Yaml.Value.keysDiffer es = true := by
  rw [entries?] at h
  split at h
  next entries hentries =>
    cases h
    have hmapping := hv.untagged
    rw [hentries] at hmapping
    exact hmapping.entries.1
  · cases h
    rfl
  · cases h

/-- No mapping of fields names one twice. -/
theorem fieldEntries?_differ (v : Yaml.Value) (hv : v.Proper) (es : List Yaml.Entry)
    (h : fieldEntries? v = some es) : Yaml.Value.keysDiffer es = true := by
  obtain ⟨value, hvalue, hes⟩ := Option.bind_eq_some_iff.mp h
  obtain ⟨ms, hms, hmember⟩ := Option.bind_eq_some_iff.mp hvalue
  obtain ⟨m, hm, rfl⟩ := Option.map_eq_some_iff.mp hmember
  have hbody := bodyOf?_proper v hv ms hms
  exact entries?_differ m.2 (hbody.entries.2 m (List.mem_of_find?_eq_some hm)) es hes

def LayoutOf (v : Yaml.Value) (l : Layout) : Prop :=
  ofValue v = .ok l ∧ ∃ es, fieldEntries? v = some es ∧ Describes es l.fields

theorem layoutOf_of_stands (yaml : String) (vs : List Yaml.Value) (ls : List Layout)
    (hvs : contents? yaml = some vs) (h : Stands vs ls) : List.Forall₂ LayoutOf vs ls := by
  have hproper := contents?_proper yaml vs hvs
  clear hvs
  induction h with
  | nil => exact .nil
  | @cons v l vs ls hv _ ih =>
    rw [List.forall_mem_cons] at hproper
    obtain ⟨es, texts, hes, hgathers, hmeans⟩ := ofValue_fields v l hv
    have hdiffer := fieldEntries?_differ v hproper.1 es hes
    exact .cons ⟨hv, es, hes, hgathers.describes es texts l.fields hmeans hdiffer⟩ (ih hproper.2)

/-- Documents that stop the reading. Those without content do not count. -/
inductive Unreadable (d : Yaml.Document) : Prop
  | malformed (h : Yaml.Value.ofDocument? d = none)
  | notMapping (v : Yaml.Value) (hv : Yaml.Value.ofDocument? d = some v)
      (hcontent : hasContent v = true) (h : ∀ es, v ≠ .mapping es)
  | invalid (v : Yaml.Value) (fault : LayoutFault) (hv : Yaml.Value.ofDocument? d = some v)
      (hcontent : hasContent v = true) (h : ofValue v = .error fault)

theorem Unreadable.no_layout (d : Yaml.Document) (h : Unreadable d) (v : Yaml.Value)
    (hv : Yaml.Value.ofDocument? d = some v) :
    hasContent v = true ∧ ∀ l, ofValue v ≠ .ok l := by
  cases h with
  | malformed h =>
    rw [h] at hv
    cases hv
  | notMapping v' hv' hcontent h =>
    obtain rfl : v' = v := Option.some.inj (hv'.symm.trans hv)
    refine ⟨hcontent, fun l hl => ?_⟩
    cases v' with
    | mapping es => exact h es rfl
    | _ => cases hl
  | invalid v' fault hv' hcontent h =>
    obtain rfl : v' = v := Option.some.inj (hv'.symm.trans hv)
    exact ⟨hcontent, fun l hl => by simp [h] at hl⟩

/-- One such document anywhere and no layout is read. -/
theorem readAll_unreadable (yaml : String) (d : Yaml.Document)
    (hd : d ∈ (Yaml.documents yaml).all) (h : Unreadable d) (ls : List Layout) :
    readAll yaml ≠ .ok ls := by
  intro hread
  obtain ⟨vs, hvs, hstands⟩ := (readAll_ok_iff yaml ls).mp hread
  obtain ⟨-, all, hall, rfl⟩ := contents?_some yaml vs hvs
  obtain ⟨v, hv, hdv⟩ := partner_left hall d hd
  obtain ⟨hcontent, hlayout⟩ := h.no_layout d v hdv
  obtain ⟨l, -, hl⟩ := partner_left hstands v (List.mem_filter.mpr ⟨hv, hcontent⟩)
  exact hlayout l hl

end Layout

end TaggedPayload
