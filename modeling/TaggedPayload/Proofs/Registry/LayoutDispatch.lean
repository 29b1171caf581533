import TaggedPayload.Proofs.Batch.AnyOrder
import TaggedPayload.Proofs.Layout.FieldEncoding
import TaggedPayload.Proofs.Registry.SoleDecoder

/-!
# Payloads of loaded layouts

The layouts of a text, loaded into an empty registry, decode the payloads that are written by them.
With distinct tags, a tag leaves one layout only; its fields are read back from behind the tag, and
what follows them is kept in the event's payload and nowhere else.
-/

set_option autoImplicit false

namespace TaggedPayload

/-! ## Loading -/

namespace Registry

theorem loadedEntries_handles (n : Nat) (ls : List Layout) :
    (loadedEntries n ls).map (·.2) =
      (ls.zipIdx n).map fun p => ⟨.loaded p.2, .tagged p.1.decoder⟩ := by
  rw [loadedEntries_eq, List.map_map, Function.comp_def]

theorem loaded_coherent (n : Nat) (ls : List Layout) :
    Coherent ((loadedEntries n ls).map (·.2)) := by
  rw [loadedEntries_handles]
  intro g hg h hh hid
  obtain ⟨⟨l, i⟩, hl, rfl⟩ := List.mem_map.mp hg
  obtain ⟨⟨m, j⟩, hm, rfl⟩ := List.mem_map.mp hh
  obtain rfl : i = j := HandleId.loaded.inj hid
  rw [List.mem_zipIdx_iff_le_and_getElem?_sub] at hl hm
  obtain rfl : l = m := Option.some.inj (hl.2.symm.trans hm.2)
  rfl

theorem empty_sound : empty.Sound := by
  constructor <;> simp [empty, decoders, Coherent]

/-- What the layouts of a text make of an empty registry. -/
theorem load_empty (yaml : String) (ls : List Layout) (r : Registry)
    (hread : Layout.readAll yaml = .ok ls) (hload : empty.loadLayouts yaml = .ok r) :
    r.Sound ∧ r.fallback = none ∧ r.decoders = (loadedEntries 0 ls).map (·.2) := by
  obtain ⟨ms, n, hms, rfl⟩ := loadLayouts_ok empty r yaml hload
  obtain rfl : ms = ls := Except.ok.inj (hms.symm.trans hread)
  have hall : (empty.insertAll (loadedEntries 0 ms)).Sound :=
    insertAll_sound empty _ empty_sound (loaded_coherent 0 ms)
  exact ⟨⟨hall.owned, hall.coherent⟩, insertAll_fallback empty _, insertAll_decoders empty _⟩

theorem mem_loaded (n : Nat) (ls : List Layout) (h : Handle)
    (hh : h ∈ (loadedEntries n ls).map (·.2)) : ∃ l ∈ ls, h.decoder = .tagged l.decoder := by
  rw [loadedEntries_handles] at hh
  obtain ⟨p, hp, rfl⟩ := List.mem_map.mp hh
  exact ⟨p.1, List.fst_mem_of_mem_zipIdx hp, rfl⟩

theorem loaded_mem (n : Nat) (ls : List Layout) (l : Layout) (hl : l ∈ ls) :
    ∃ h ∈ (loadedEntries n ls).map (·.2), h.decoder = .tagged l.decoder := by
  induction ls generalizing n with
  | nil => cases hl
  | cons m ls ih =>
    rcases List.mem_cons.mp hl with rfl | hl
    · exact ⟨_, List.mem_cons_self, rfl⟩
    · obtain ⟨h, hh, hd⟩ := ih (n + 1) hl
      exact ⟨h, List.mem_cons_of_mem _ hh, hd⟩

end Registry

/-! ## Dispatch -/

namespace Layout

/-- The payload that a layout tags: its tag, the bytes of its fields and anything behind them. -/
def payload (l : Layout) (fields rest : Bytes) : Bytes :=
  l.tag.bytes ++ fields ++ rest

def event (l : Layout) (values : List Value) (data : Bytes) : Event :=
  ⟨l.name, .record (named l.fields values), data, l.program, some l.tag⟩

theorem leading_payload (l : Layout) (fields rest : Bytes) :
    Tag.leading? (l.payload fields rest) = some l.tag := by
  rw [payload, List.append_assoc]
  exact leading_bytes ⟨l.tag, fields ++ rest⟩

theorem accepts_payload (l m : Layout) (fields rest : Bytes) :
    m.decoder.accepts (l.payload fields rest) = true ↔ m.tag = l.tag := by
  rw [TaggedDecoder.accepts, leading_payload, beq_iff_eq, Option.some.injEq]
  exact eq_comm

theorem decode_payload (l : Layout) (values : List Value) (bs rest : Bytes)
    (hread : readRecord l.fields (bs ++ rest) = .ok (.record (named l.fields values))) :
    l.decoder.decode (l.payload bs rest) = .ok (l.event values (l.payload bs rest)) := by
  have hdrop : (l.payload bs rest).drop Tag.width = bs ++ rest := by
    rw [payload, List.append_assoc]
    exact drop_bytes ⟨l.tag, bs ++ rest⟩
  rw [TaggedDecoder.decode, if_pos ((accepts_payload l l bs rest).mpr rfl), hdrop]
  simp only [TaggedDecoder.event, decoder, hread]
  rfl

end Layout

/-- A payload of one of the layouts is accepted by that layout's decoder alone. -/
theorem loaded_agree (ls : List Layout) (htags : (ls.map (·.tag)).Nodup) (l : Layout) (hl : l ∈ ls)
    (values : List Value) (bs rest : Bytes) (hs : List Handle)
    (hs_loaded : ∀ h, h ∈ hs ↔ h ∈ (Registry.loadedEntries 0 ls).map (·.2))
    (hread : readRecord l.fields (bs ++ rest) = .ok (.record (named l.fields values))) :
    Agree hs (l.payload bs rest) (.ok (l.event values (l.payload bs rest))) := by
  constructor
  · obtain ⟨h, hh, hd⟩ := Registry.loaded_mem 0 ls l hl
    refine ⟨h, (hs_loaded h).mpr hh, ?_⟩
    rw [hd, Decoder.accepts]
    exact (Layout.accepts_payload l l bs rest).mpr rfl
  · intro h hh hacc
    obtain ⟨m, hm, hd⟩ := Registry.mem_loaded 0 ls h ((hs_loaded h).mp hh)
    rw [hd, Decoder.accepts, Layout.accepts_payload] at hacc
    obtain rfl : m = l := List.inj_on_of_nodup_map htags hm hl hacc
    rw [hd, Decoder.decode]
    exact Layout.decode_payload m values bs rest hread

/-- Layouts with distinct tags, loaded into an empty registry, decode what is written by them: for
each layout, all values that its fields hold, anything behind them and any program, the payload has
the layout's event, alone and among the payloads of a batch, fanned out or not. -/
theorem loaded_layout_event (yaml : String) (ls : List Layout) (r : Registry)
    (hread : Layout.readAll yaml = .ok ls) (hload : Registry.empty.loadLayouts yaml = .ok r)
    (htags : (ls.map (·.tag)).Nodup) (l : Layout) (hl : l ∈ ls) (values : List Value)
    (hvalues : FieldsFit l.fields values) :
    ∃ bs, encodeFields l.fields values = some bs ∧
      ∀ (rest : Bytes) (program : Option AccountKey),
        r.decode (l.payload bs rest) program =
          .ok (l.event values (l.payload bs rest)) ∧
        ∀ before after : List Bytes,
          let events ps := ((r.candidates program).sequentialBatch ps ⟨false, 0⟩).1.events
          let payloads := before ++ l.payload bs rest :: after
          events payloads =
            events before ++ l.event values (l.payload bs rest) :: events after ∧
          ∀ workers,
            ((r.candidates program).parallelBatch payloads workers false).1.events =
              events payloads := by
  obtain ⟨bs, hbs, hrecord⟩ := readRecord_encode l.fields values hvalues
  obtain ⟨hsound, hfallback, hdecoders⟩ := Registry.load_empty yaml ls r hread hload
  refine ⟨bs, hbs, fun rest program => ?_⟩
  have hagree : Agree (r.candidates program).all (l.payload bs rest)
      (.ok (l.event values (l.payload bs rest))) := by
    apply loaded_agree ls htags l hl values bs rest _ _ (hrecord rest)
    intro h
    have hall : (r.candidates program).all = (r.candidates program).ranked := by
      rw [Candidates.all, Registry.candidates, hfallback, Option.toList_none, List.append_nil]
    rw [hall, Registry.mem_ranked r hsound, hdecoders]
  refine ⟨Candidates.decode_agree _ _ _ hagree, fun before after => ⟨?_, fun workers => ?_⟩⟩
  · have hlen : 8 ≤ (l.payload bs rest).length := by
      simp only [Layout.payload, List.length_append, l.tag.length_bytes]
      omega
    have hitem := Candidates.decodeItem_agree _ _ _ hlen hagree
    simp only [Candidates.sequentialBatch_events]
    rw [List.filterMap_append, List.filterMap_cons_some (by rw [hitem]; rfl)]
  · rw [Candidates.parallelBatch_sequential]

/-- The second of two layouts, with a negative number and a text in its fields. -/
theorem loaded_layout_event_second :
    let yaml := "layout Open:\n  discriminator: '0000000000000001'\n  fields:\n---\n" ++
      "layout Note:\n  discriminator: '0102030405060708'\n" ++
      "  fields:\n    delta: i16\n    memo: string\n"
    let note : Layout := ⟨"Note", .event, .zero, ⟨[1, 2, 3, 4, 5, 6, 7, 8], rfl⟩,
      [("delta", .signed .two), ("memo", .text)]⟩
    let values : List Value := [.int (-2), .text "hi"]
    ∃ ls r bs, Layout.readAll yaml = .ok ls ∧ Registry.empty.loadLayouts yaml = .ok r ∧
      (ls.map (·.tag)).Nodup ∧ note ∈ ls ∧ FieldsFit note.fields values ∧
      bs = [254, 255, 2, 0, 0, 0, 104, 105] ∧
      ∀ rest program,
        r.decode (note.payload bs rest) program = .ok (note.event values (note.payload bs rest)) ∧
        ∀ workers,
          ((r.candidates program).parallelBatch [note.payload bs rest] workers false).1.events =
            [note.event values (note.payload bs rest)] := by
  intro yaml note values
  let opening : Layout := ⟨"Open", .event, .zero, ⟨[0, 0, 0, 0, 0, 0, 0, 1], rfl⟩, []⟩
  have hread : Layout.readAll yaml = .ok [opening, note] := by
    have h : (Layout.readAll yaml).toOption = some [opening, note] := by decide +kernel
    cases hr : Layout.readAll yaml with
    | error e =>
      rw [hr] at h
      cases h
    | ok ls =>
      rw [hr] at h
      exact congrArg Except.ok (Option.some.inj h)
  obtain ⟨r, hload⟩ : ∃ r, Registry.empty.loadLayouts yaml = .ok r := by
    rw [Registry.loadLayouts_eq, hread]
    exact ⟨_, rfl⟩
  have htags : ([opening, note].map (·.tag)).Nodup := by decide
  have hvalues : FieldsFit note.fields values := by
    refine .cons ?_ (.cons ?_ .nil)
    · show -(2 ^ 15 : Nat) ≤ (-2 : Int) ∧ (-2 : Int) < (2 ^ 15 : Nat)
      omega
    · show (Text.utf8Of "hi").length < 2 ^ 32
      decide
  obtain ⟨bs, hbs, hevent⟩ := loaded_layout_event yaml _ r hread hload htags note
    (List.mem_cons_of_mem _ List.mem_cons_self) values hvalues
  have hbytes : bs = [254, 255, 2, 0, 0, 0, 104, 105] := by
    have h : encodeFields note.fields values = some [254, 255, 2, 0, 0, 0, 104, 105] := by decide
    exact Option.some.inj (hbs.symm.trans h)
  refine ⟨_, r, bs, hread, hload, htags, List.mem_cons_of_mem _ List.mem_cons_self, hvalues, hbytes,
    fun rest program => ⟨(hevent rest program).1, fun workers => ?_⟩⟩
  obtain ⟨hfast, hparallel⟩ := (hevent rest program).2 [] []
  exact (hparallel workers).trans hfast

end TaggedPayload
