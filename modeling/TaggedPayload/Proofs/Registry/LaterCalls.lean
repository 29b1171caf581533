import TaggedPayload.Proofs.Batch.AnyOrder
import TaggedPayload.Proofs.Registry.Outcomes
import TaggedPayload.Proofs.Registry.SoleDecoder
import TaggedPayload.Registry.Command

/-!
# Dispatch after later calls

Calls on a registry, refused or not, only add decoders behind those that are there: behind the
registered ones and behind those of every program. The candidates of a dispatch start with one of
these lists, so a payload that is decided there stays decided, whatever is registered later and
whatever becomes the fallback. Identities do not matter here: a decoder that comes once more is
dropped behind the decisive part only.
-/

set_option autoImplicit false

namespace TaggedPayload

namespace Registry

structure Extends (r later : Registry) : Prop where
  decoders : r.decoders <+: later.decoders
  bucket (p : AccountKey) : r.bucket p <+: later.bucket p

theorem Extends.refl (r : Registry) : Extends r r :=
  ⟨List.prefix_rfl, fun _ => List.prefix_rfl⟩

theorem Extends.trans {r s t : Registry} (h : Extends r s) (hs : Extends s t) : Extends r t :=
  ⟨h.decoders.trans hs.decoders, fun p => (h.bucket p).trans (hs.bucket p)⟩

/-! ## Calls -/

theorem insert_extends (r : Registry) (key : String) (program : Option AccountKey) (h : Handle) :
    Extends r (r.insert key program h) := by
  constructor
  · rw [insert_decoders]
    exact List.prefix_append r.decoders [h]
  · intro p
    simp only [bucket, insert, List.filter_append, List.map_append]
    exact List.prefix_append _ _

theorem insertAll_extends (r : Registry) (es : List (String × Handle)) :
    Extends r (r.insertAll es) := by
  induction es generalizing r with
  | nil => exact Extends.refl r
  | cons e es ih => exact (insert_extends r e.1 e.2.scope e.2).trans (ih _)

theorem enlist_extends (r s : Registry) (key : String) (program : Option AccountKey) (h : Handle)
    (hs : (RegistryCall.enlist key program h).after r = .ok s) : Extends r s := by
  rw [RegistryCall.enlist_after] at hs
  split at hs
  · cases hs
  · cases hs
    exact insert_extends r key program h

theorem registerAll_extends (r s : Registry) (es : List (String × Handle))
    (hs : r.registerAll es = .ok s) : Extends r s := by
  rw [registerAll_ok r s es hs]
  exact insertAll_extends r es

theorem loadLayouts_extends (r s : Registry) (yaml : String) (hs : r.loadLayouts yaml = .ok s) :
    Extends r s := by
  obtain ⟨ls, n, -, rfl⟩ := loadLayouts_ok r s yaml hs
  have hall := insertAll_extends r (loadedEntries r.loaded ls)
  exact ⟨hall.decoders, hall.bucket⟩

theorem apply_extends (r s : Registry) (c : RegistryCommand) (hs : c.apply r = .ok s) :
    Extends r s := by
  cases c with
  | register key h => exact enlist_extends r s key h.scope h hs
  | registerForProgram p h => exact enlist_extends r s p.text (some p) h hs
  | registerAll es => exact registerAll_extends r s es hs
  | loadLayouts yaml => exact loadLayouts_extends r s yaml hs
  | setFallback h =>
    cases hs
    exact ⟨List.prefix_rfl, fun _ => List.prefix_rfl⟩

theorem perform_extends (r : Registry) (c : RegistryCommand) : Extends r (c.perform r).1 := by
  rw [RegistryCommand.perform_eq]
  cases hc : c.apply r with
  | ok s => exact apply_extends r s c hc
  | error e => exact Extends.refl r

theorem run_extends (r : Registry) (cs : List RegistryCommand) :
    Extends r (RegistryCommand.run r cs) := by
  induction cs generalizing r with
  | nil => exact Extends.refl r
  | cons c cs ih => exact (perform_extends r c).trans (ih _)

/-! ## The leading candidates -/

/-- The decoders that a dispatch asks first: those of the program, or all that are registered if
there is none. -/
def leading (r : Registry) : Option AccountKey → List Handle
  | none => r.decoders
  | some p => r.bucket p

theorem Extends.leading {r later : Registry} (h : Extends r later) (program : Option AccountKey) :
    r.leading program <+: later.leading program := by
  cases program with
  | none => exact h.decoders
  | some p => exact h.bucket p

theorem leading_candidates (r : Registry) (program : Option AccountKey) :
    r.leading program <+: (r.candidates program).all := by
  cases program with
  | none => simp [Registry.leading, candidates, Candidates.all]
  | some p =>
    simp only [Registry.leading, candidates, Candidates.all, Option.map_some, Option.getD_some,
      List.append_assoc]
    exact List.prefix_append _ _

end Registry

/-! ## Payloads that the leading candidates decide -/

/-- A handle found among candidates that start with others is found there, if it is one of them. -/
theorem find?_leading (p : Handle → Bool) (hs all : List Handle) (h : Handle) (hall : hs <+: all)
    (hfind : all.find? p = some h) (hh : h ∈ hs) : hs.find? p = some h := by
  obtain ⟨rest, rfl⟩ := hall
  rw [List.find?_append] at hfind
  cases hs_find : hs.find? p with
  | some g => rwa [hs_find] at hfind
  | none =>
    have hp : p h = true := by
      rw [hs_find] at hfind
      exact List.find?_some hfind
    exact absurd hp (List.find?_eq_none.mp hs_find h hh)

namespace Registry

theorem Extends.find? {r later : Registry} (hext : Extends r later) (program : Option AccountKey)
    (p : Handle → Bool) (h : Handle) (hfind : (r.candidates program).all.find? p = some h)
    (hh : h ∈ r.leading program) : (later.candidates program).all.find? p = some h :=
  ((hext.leading program).trans (leading_candidates later program)).find?_eq_some
    (find?_leading p _ _ h (leading_candidates r program) hfind hh)

end Registry

/-- A payload that a registered decoder decides, or with a program one of the program's decoders,
has the same outcome after any further calls, strictly and in a batch; so has every batch of
payloads that such decoders read. -/
theorem decided_for_good (r : Registry) (cs : List RegistryCommand) (program : Option AccountKey) :
    let later := RegistryCommand.run r cs
    let c := r.candidates program
    let c' := later.candidates program
    (∀ data, ∀ h ∈ r.leading program, c.resolve data = some h →
      r.decode data program = h.decoder.decode data ∧
        later.decode data program = h.decoder.decode data) ∧
    (∀ data, ∀ h ∈ r.leading program, c.Succeeds data h →
      c.decodeItem data = h.decoder.decode data ∧ c'.decodeItem data = h.decoder.decode data) ∧
    ∀ payloads : List Bytes,
      (∀ data ∈ payloads, ∃ h ∈ r.leading program, c.Succeeds data h) →
        ∀ config, (c'.batch config payloads).1 = (c.batch config payloads).1 := by
  intro later c c'
  have hext : r.Extends later := Registry.run_extends r cs
  have hitem : ∀ data, ∀ h ∈ r.leading program, c.Succeeds data h →
      c.decodeItem data = h.decoder.decode data ∧
        c'.decodeItem data = h.decoder.decode data := by
    intro data h hh hs
    have hs' : c'.Succeeds data h := ⟨hs.1, hext.find? program _ h hs.2 hh⟩
    have hread := List.find?_some hs.2
    cases hd : h.decoder.decode data with
    | error fault => simp [hd, Except.isOk, Except.toBool] at hread
    | ok e =>
      exact ⟨(c.decodeItem_ok_iff data e).mpr ⟨h, hs, hd⟩,
        (c'.decodeItem_ok_iff data e).mpr ⟨h, hs', hd⟩⟩
  refine ⟨?_, hitem, ?_⟩
  · intro data h hh hresolve
    have hresolve' : c'.resolve data = some h := hext.find? program _ h hresolve hh
    rw [Registry.decode, Registry.decode, Candidates.decode, Candidates.decode, hresolve,
      hresolve']
    exact ⟨rfl, rfl⟩
  · intro payloads hpayloads config
    rw [Candidates.batch_sequential, Candidates.batch_sequential]
    apply Candidates.sequentialBatch_congr
    intro data hd
    obtain ⟨h, hh, hs⟩ := hpayloads data hd
    rw [(hitem data h hh hs).1, (hitem data h hh hs).2]

/-- A decoder that reads anything joins the program, the decoder that was there comes again under
another key and becomes the fallback, and one call is refused. -/
theorem decided_for_good_crowded :
    let p : AccountKey := ⟨List.replicate 32 7, rfl⟩
    let tag : Tag := ⟨List.replicate 8 1, rfl⟩
    let swap : Handle := ⟨.shared 0, .tagged ⟨"Swap", p, tag, fun bs => .ok (.bytes bs)⟩⟩
    let raw : Handle := ⟨.shared 1, .gated ⟨"Raw", .zero, 0, fun bs => .ok (.bytes bs)⟩⟩
    let r := RegistryCommand.run .empty [.register "swap" swap, .setFallback raw]
    let later := RegistryCommand.run r
      [.register "swap" raw, .registerForProgram p raw,
        .registerAll [("raw", raw), ("again", swap)], .setFallback swap]
    let data := tag.bytes ++ [5]
    let event : Event := ⟨"Swap", .bytes [5], data, p, some tag⟩
    (later.bucket p).map (·.id) = [.shared 0, .shared 1, .shared 0] ∧
      later.keys = ["swap", p.text, "raw", "again"] ∧
      ∀ program ∈ [none, some p],
        (swap ∈ r.leading program ∧ (r.candidates program).resolve data = some swap ∧
          later.decode data program = .ok event) ∧
        ((r.candidates program).Succeeds data swap ∧
          (later.candidates program).decodeItem data = .ok event) ∧
        ((later.candidates program).batch .usual [data, data]).1 =
          ((r.candidates program).batch .usual [data, data]).1 := by
  intro p tag swap raw r later data event
  refine ⟨by decide +kernel, by decide +kernel, ?_⟩
  intro program hprogram
  have hevent : swap.decoder.decode data = .ok event := by decide +kernel
  obtain ⟨hleading, hresolve, hs⟩ : swap ∈ r.leading program ∧
      (r.candidates program).resolve data = some swap ∧
      (r.candidates program).Succeeds data swap := by
    rcases List.mem_pair.mp hprogram with rfl | rfl
    · exact ⟨List.mem_cons_self, rfl, by decide, rfl⟩
    · exact ⟨List.mem_cons_self, rfl, by decide, rfl⟩
  obtain ⟨hstrict, hitem, hbatch⟩ := decided_for_good r _ program
  refine ⟨⟨hleading, hresolve, ?_⟩, ⟨hs, ?_⟩, hbatch _ ?_ .usual⟩
  · rw [← hevent]
    exact (hstrict data swap hleading hresolve).2
  · rw [← hevent]
    exact (hitem data swap hleading hs).2
  · intro d hd
    rcases List.mem_pair.mp hd with rfl | rfl <;> exact ⟨swap, hleading, hs⟩

end TaggedPayload
