import TaggedPayload.Proofs.Decoder.SplitBuffer
import TaggedPayload.Proofs.Layout.FieldReading
import TaggedPayload.Proofs.Layout.WrittenFields

/-!
# Values by the names of fields

The fields of a layout have different names, whatever its document names them. So the record of a
payload has the value of each field under the field's name. One document that cannot be read leaves
no layout of the text.
-/

set_option autoImplicit false

namespace TaggedPayload

/-! ## Values in order -/

/-- What reading the `i`-th field yields, behind the fields before it. -/
def readAt (fs : List Field) (c : Cursor) (i : Nat) (hi : i < fs.length) :
    Except ReadError Value :=
  (fs[i].2.read (readFields (fs.take i) c).2).1

theorem readAt_succ (f : Field) (fs : List Field) (c c' : Cursor) (v : Value)
    (hf : f.2.read c = (.ok v, c')) (i : Nat) (hi : i + 1 < (f :: fs).length) :
    readAt (f :: fs) c (i + 1) hi = readAt fs c' i (Nat.lt_of_succ_lt_succ hi) := by
  rw [readAt, readAt, List.take_succ_cons, readFields, hf]
  rfl

/-- The entries of a record that was read are what each field yields, under its name. -/
theorem readFields_each (fs : List Field) (c : Cursor) (entries : List (String × Value))
    (h : (readFields fs c).1 = .ok entries) :
    entries.map (·.1) = fs.map (·.1) ∧
      ∀ i (hi : i < fs.length), ∃ v, readAt fs c i hi = .ok v ∧ (fs[i].1, v) ∈ entries := by
  induction fs generalizing c entries with
  | nil =>
    cases h
    exact ⟨rfl, fun i hi => absurd hi (Nat.not_lt_zero i)⟩
  | cons f fs ih =>
    rw [readFields_first] at h
    rcases hf : f.2.read c with ⟨_ | v, c'⟩
    · rw [hf] at h
      cases h
    · rw [hf] at h
      obtain ⟨later, hlater, rfl⟩ := map_eq_ok _ _ _ h
      obtain ⟨hnames, heach⟩ := ih c' later hlater
      refine ⟨by rw [List.map_cons, List.map_cons, hnames], ?_⟩
      intro i hi
      cases i with
      | zero => exact ⟨v, congrArg Prod.fst hf, List.mem_cons_self⟩
      | succ i =>
        rw [readAt_succ f fs c c' v hf i hi]
        obtain ⟨w, hw, hmem⟩ := heach i (Nat.lt_of_succ_lt_succ hi)
        exact ⟨w, hw, List.mem_cons_of_mem _ hmem⟩

/-- A record that is not read stops at a field. -/
theorem readFields_stop (fs : List Field) (c : Cursor) (e : ReadError)
    (h : (readFields fs c).1 = .error e) : ∃ i hi, readAt fs c i hi = .error e := by
  induction fs generalizing c with
  | nil => cases h
  | cons f fs ih =>
    rw [readFields_first] at h
    rcases hf : f.2.read c with ⟨fault | v, c'⟩
    · rw [hf] at h
      cases h
      exact ⟨0, Nat.zero_lt_succ _, congrArg Prod.fst hf⟩
    · rw [hf] at h
      cases hlater : (readFields fs c').1 with
      | ok later =>
        dsimp only at h
        rw [hlater] at h
        cases h
      | error fault =>
        dsimp only at h
        rw [hlater] at h
        cases h
        obtain ⟨i, hi, hread⟩ := ih c' hlater
        exact ⟨i + 1, Nat.succ_lt_succ hi, (readAt_succ f fs c c' v hf i _).trans hread⟩

/-- With different names, a record has each entry under its name. -/
theorem field?_of_mem (entries : List (String × Value)) (h : (entries.map (·.1)).Nodup)
    (e : String × Value) (he : e ∈ entries) : (Value.record entries).field? e.1 = some e.2 := by
  induction entries with
  | nil => cases he
  | cons f entries ih =>
    rw [List.map_cons, List.nodup_cons] at h
    rcases List.mem_cons.mp he with rfl | he
    · simp [Value.field?]
    · have hne : f.1 ≠ e.1 := fun hname => h.1 (hname ▸ List.mem_map_of_mem he)
      have hrest := ih h.2 he
      rw [Value.field?] at hrest ⊢
      rw [List.find?_cons_of_neg (by simpa using hne)]
      exact hrest

namespace Layout

/-- An accepted payload gives an event with the value of each field under its name, or an error of
the field that could not be read. -/
def Retrieves (l : Layout) (data : Bytes) : Prop :=
  let c := Cursor.start (data.drop Tag.width)
  (∃ e, l.decoder.decode data = .ok e ∧
    ∀ i (hi : i < l.fields.length), ∃ v, readAt l.fields c i hi = .ok v ∧
      e.field? l.fields[i].1 = some v) ∨
  ∃ i hi cause, readAt l.fields c i hi = .error cause ∧
    l.decoder.decode data = .error (.failure l.name cause.message)

theorem retrieves_of_distinct (l : Layout) (h : (l.fields.map (·.1)).Nodup) (data : Bytes)
    (haccepts : l.decoder.accepts data = true) : l.Retrieves data := by
  have hdecode : l.decoder.decode data = l.decoder.event data (data.drop Tag.width) :=
    if_pos haccepts
  rw [Retrieves, hdecode, TaggedDecoder.event, decoder]
  dsimp only
  rw [readRecord]
  cases hread : (readFields l.fields (.start (data.drop Tag.width))).1 with
  | error cause =>
    obtain ⟨i, hi, hstop⟩ := readFields_stop l.fields _ cause hread
    exact .inr ⟨i, hi, cause, hstop, rfl⟩
  | ok entries =>
    obtain ⟨hnames, heach⟩ := readFields_each l.fields _ entries hread
    refine .inl ⟨_, rfl, ?_⟩
    intro i hi
    obtain ⟨v, hv, hmem⟩ := heach i hi
    exact ⟨v, hv, field?_of_mem entries (hnames ▸ h) _ hmem⟩

/-- Every field of a layout can be looked up by its name. The layouts are those of the documents that
count, in order. Their fields are the entries of the documents' `fields` mappings, where names that
differ by a tag only are one. The event of a payload has what each field reads under the field's
name. A fault of the text or one document that cannot be read leaves no layout. -/
theorem fields_by_name (yaml : String) :
    (∀ ls, readAll yaml = .ok ls →
      ∃ vs, contents? yaml = some vs ∧ List.Forall₂ LayoutOf vs ls ∧
        ∀ l ∈ ls, ∀ data, l.decoder.accepts data = true → l.Retrieves data) ∧
    ((Yaml.documents yaml).faulty = true ∨ (∃ d ∈ (Yaml.documents yaml).all, Unreadable d) →
      ∃ fault, readAll yaml = .error fault) := by
  constructor
  · intro ls hread
    obtain ⟨vs, hvs, hstands⟩ := (readAll_ok_iff yaml ls).mp hread
    have hall := layoutOf_of_stands yaml vs ls hvs hstands
    refine ⟨vs, hvs, hall, fun l hl data haccepts => ?_⟩
    obtain ⟨v, -, -, es, -, hdescribes⟩ := partner_right hall l hl
    exact retrieves_of_distinct l hdescribes.distinct data haccepts
  · intro hbad
    cases hread : readAll yaml with
    | error fault => exact ⟨fault, rfl⟩
    | ok ls =>
      rcases hbad with hfaulty | ⟨d, hd, hunreadable⟩
      · obtain ⟨vs, hvs, -⟩ := (readAll_ok_iff yaml ls).mp hread
        rw [(contents?_some yaml vs hvs).1] at hfaulty
        cases hfaulty
      · exact absurd hread (readAll_unreadable yaml d hd hunreadable ls)

/-- A layout that names one field twice, the second time with a tag. -/
def twice : String :=
  "layout Open:\n  fields:\n    x: u8\n    !again x: u16\n"

theorem twice_read :
    readAll twice = .ok [⟨"Open", .event, .zero, .ofEvent "Open", [("x", .unsigned .two)]⟩] := by
  decide +kernel

/-- The one field has the type of the second entry. -/
theorem fields_by_name_twice :
    ∃ l, readAll twice = .ok [l] ∧
      ∃ e, l.decoder.decode (TaggedBuffer.bytes ⟨l.tag, [1, 2]⟩) = .ok e ∧
        e.field? "x" = some (.uint 513) := by
  let l : Layout := ⟨"Open", .event, .zero, .ofEvent "Open", [("x", .unsigned .two)]⟩
  refine ⟨l, twice_read, ?_⟩
  have haccepts : l.decoder.accepts (TaggedBuffer.bytes ⟨l.tag, [1, 2]⟩) = true := by
    rw [TaggedDecoder.accepts, leading_bytes]
    exact beq_self_eq_true _
  obtain ⟨vs, -, -, hretrieves⟩ := (fields_by_name twice).1 [l] twice_read
  have hdata := hretrieves l List.mem_cons_self _ haccepts
  rw [Retrieves, drop_bytes] at hdata
  rcases hdata with ⟨e, hdecode, hfield⟩ | ⟨i, hi, cause, hstop, -⟩
  · obtain ⟨v, hv, hx⟩ := hfield 0 Nat.zero_lt_one
    cases hv
    exact ⟨e, hdecode, hx⟩
  · obtain rfl : i = 0 := Nat.lt_one_iff.mp hi
    cases hstop

/-- The mapping has two entries, and the layout has one field. -/
theorem tagged_name_merged :
    (contents? twice).map (·.map fun v =>
        (fieldEntries? v).map (·.map fun e => (e.1.string?, e.2.string?))) =
      some [some [(some "x", some "u8"), (some "x", some "u16")]] ∧
      (readAll twice).map (·.map (·.fields)) = .ok [[("x", .unsigned .two)]] := by
  rw [twice_read]
  decide +kernel

end Layout

end TaggedPayload
