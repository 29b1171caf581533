import TaggedPayload.Proofs.Layout.Stream
import TaggedPayload.Proofs.Registry.SoleDecoder
import TaggedPayload.Registry.Command

/-!
# Names of loaded layouts

Loading a text adds one decoder for each of its documents, under the name of the document's first
layout key. No name is lost where every document has one such key; a second key of a document is
dropped without an error.
-/

set_option autoImplicit false

namespace TaggedPayload

namespace Registry

theorem loadedEntries_keys (n : Nat) (ls : List Layout) :
    (loadedEntries n ls).map (·.1) = ls.map (·.name) := by
  induction ls generalizing n with
  | nil => rfl
  | cons l ls ih => rw [loadedEntries, List.map_cons, ih, List.map_cons]

theorem loadLayouts_keys (r r' : Registry) (yaml : String) (ls : List Layout)
    (hread : Layout.readAll yaml = .ok ls) (hload : r.loadLayouts yaml = .ok r') :
    r'.keys = r.keys ++ ls.map (·.name) := by
  obtain ⟨ms, n, hms, rfl⟩ := loadLayouts_ok r r' yaml hload
  obtain rfl : ms = ls := Except.ok.inj (hms.symm.trans hread)
  show (r.insertAll (loadedEntries r.loaded ms)).keys = _
  rw [insertAll_keys, loadedEntries_keys]

theorem size_keys (r : Registry) : r.size = r.keys.length :=
  List.length_map _ |>.symm

/-- A call that loads layouts and succeeds adds the names of all layouts as keys, and counts them. -/
theorem perform_loadLayouts (r : Registry) (yaml : String) (ls : List Layout) (n : Nat)
    (hread : Layout.readAll yaml = .ok ls)
    (hok : ((RegistryCommand.loadLayouts yaml).perform r).2.result = .ok n) :
    ((RegistryCommand.loadLayouts yaml).perform r).1.keys = r.keys ++ ls.map (·.name) ∧
      n = ls.length := by
  rw [RegistryCommand.perform_eq, RegistryCommand.apply] at hok ⊢
  cases hload : r.loadLayouts yaml with
  | error fault =>
    rw [hload] at hok
    cases hok
  | ok r' =>
    rw [hload] at hok
    cases hok
    have hkeys := loadLayouts_keys r r' yaml ls hread hload
    refine ⟨hkeys, ?_⟩
    rw [size_keys, size_keys, hkeys, List.length_append, Nat.add_sub_cancel_left, List.length_map]

end Registry

/-- A text that can be read has one layout for each document with content, in order, and the layout
has the first name that the document writes. Loaded into a registry, these names are what it gains
as keys. They are all of the names just if every document has one layout key, and that is just when
the number of decoders is that of the names. -/
theorem loaded_names (yaml : String) (ls : List Layout) (hread : Layout.readAll yaml = .ok ls) :
    ∃ vs, Layout.contents? yaml = some vs ∧
      let written := vs.flatMap Layout.namesIn
      let names := ls.map (·.name)
      List.Forall₂
        (fun v l => Layout.ofValue v = .ok l ∧ (Layout.namesIn v).head? = some l.name) vs ls ∧
      names.Sublist written ∧ (names = written ↔ Layout.OneKeyEach vs) ∧
      ∀ (r : Registry) (n : Nat),
        let loaded := (RegistryCommand.loadLayouts yaml).perform r
        loaded.2.result = .ok n →
          loaded.1.keys = r.keys ++ names ∧ n = vs.length ∧
          (n = written.length ↔ Layout.OneKeyEach vs) ∧
          (Layout.OneKeyEach vs → ∀ name ∈ written, name ∈ loaded.1.keys) := by
  obtain ⟨vs, hvs, hstands⟩ := (Layout.readAll_ok_iff yaml ls).mp hread
  have hheads := Layout.stands_names vs ls hstands
  have hpart := Layout.heads_sublist Layout.namesIn vs _ hheads
  have hall := Layout.heads_eq_iff Layout.namesIn vs _ hheads
  refine ⟨vs, hvs, hstands.imp fun v l h => ⟨h, Layout.ofValue_name v l h⟩, hpart, hall, ?_⟩
  intro r n loaded hok
  obtain ⟨hkeys, hn⟩ := Registry.perform_loadLayouts r yaml ls n hread hok
  refine ⟨hkeys, hn.trans hstands.length_eq.symm, ?_, fun hone name hname => ?_⟩
  · rw [Layout.OneKeyEach, ← hall, hn, ← List.length_map (·.name)]
    constructor
    · exact hpart.eq_of_length
    · exact congrArg List.length
  · rw [hkeys, hall.mpr hone]
    exact List.mem_append_right _ hname

/-- Two documents with one layout key each, and an empty one between them. -/
theorem loaded_names_apart :
    let yaml := "layout Open:\n  discriminator: '0000000000000001'\n  fields:\n---\n---\n" ++
      "version: 2\nlayout Close:\n  discriminator: '0000000000000002'\n  fields:\n"
    let loaded := (RegistryCommand.loadLayouts yaml).perform .empty
    ∃ ls vs, Layout.readAll yaml = .ok ls ∧ Layout.contents? yaml = some vs ∧
      vs.flatMap Layout.namesIn = ["Open", "Close"] ∧ Layout.OneKeyEach vs ∧
      loaded.2.result = .ok 2 ∧
      loaded.1.keys = ls.map (·.name) ∧ ls.map (·.name) = vs.flatMap Layout.namesIn := by
  intro yaml
  dsimp only
  have hok : ((RegistryCommand.loadLayouts yaml).perform .empty).2.result = .ok 2 := by
    decide +kernel
  obtain ⟨ls, hls⟩ : ∃ ls, Layout.readAll yaml = .ok ls := by
    cases hread : Layout.readAll yaml with
    | error fault =>
      simp [RegistryCommand.perform_eq, RegistryCommand.apply, Registry.loadLayouts_eq, hread] at hok
    | ok ls => exact ⟨ls, rfl⟩
  have hwritten : (Layout.contents? yaml).map (·.map Layout.namesIn) = some [["Open"], ["Close"]] := by
    decide +kernel
  obtain ⟨vs, hvs, -, -, hall, hkeys⟩ := loaded_names yaml ls hls
  rw [hvs] at hwritten
  have hnames : vs.map Layout.namesIn = [["Open"], ["Close"]] := Option.some.inj hwritten
  have hone : Layout.OneKeyEach vs := by
    intro v hv
    have hmem := List.mem_map_of_mem (f := Layout.namesIn) hv
    rw [hnames] at hmem
    have hlen : ∀ names ∈ [["Open"], ["Close"]], names.length = 1 := by decide
    exact hlen _ hmem
  refine ⟨ls, vs, hls, hvs, ?_, hone, hok, (hkeys .empty 2 hok).1, hall.mpr hone⟩
  rw [List.flatMap_def, hnames]
  rfl

/-- A second layout key of a document: the text is loaded without an error, and its layout is not. -/
theorem second_layout_lost :
    let yaml := "layout Open:\n  discriminator: '0000000000000001'\n  fields:\n" ++
      "layout Close:\n  discriminator: '0000000000000002'\n  fields:\n"
    let loaded := (RegistryCommand.loadLayouts yaml).perform .empty
    (Layout.contents? yaml).map (·.flatMap Layout.namesIn) = some ["Open", "Close"] ∧
      (Layout.readAll yaml).toOption.map (·.map (·.name)) = some ["Open"] ∧
      loaded.2.result = .ok 1 ∧ loaded.1.keys = ["Open"] ∧ "Close" ∉ loaded.1.keys := by
  decide +kernel

end TaggedPayload
