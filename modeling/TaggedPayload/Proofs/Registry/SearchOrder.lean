import TaggedPayload.Proofs.Registry.AcceptedLog
import TaggedPayload.Proofs.Registry.SoleDecoder

/-!
# The order of the search

Dispatch looks through one list, from which the second mention of a decoder is dropped by its
identity. It finds what a search in three phases finds: the decoders of the program, then all
registered decoders, then the fallback. That a dropped decoder could not have accepted the payload
rests on identities telling decoders apart, and that holds in every registry whose callers bring
decoders of their own or hand back those that the registry made.
-/

set_option autoImplicit false

namespace TaggedPayload

/-! ## The specification -/

/-- The outcome of the first decoder that accepts the payload, in the first phase that has one. -/
def searchPhases (data : Bytes) : List (List Handle) → Except DecodeError Event
  | [] => .error .notFound
  | hs :: phases =>
    match hs.find? fun h => h.decoder.accepts data with
    | some h => h.decoder.decode data
    | none => searchPhases data phases

/-- The phases of a dispatch, in the order of the log. What belongs to the program is in the first
two of them. -/
def RegistryLog.phases (log : RegistryLog) (program : Option AccountKey) : List (List Handle) :=
  [(program.map fun p => (log.accepted.filter fun g => g.owner? = some p).map (·.handle)).getD [],
    log.accepted.map (·.handle), log.fallbacks.getLast?.toList]

theorem searchPhases_flatten (data : Bytes) (phases : List (List Handle)) :
    searchPhases data phases =
      match phases.flatten.find? fun h => h.decoder.accepts data with
      | some h => h.decoder.decode data
      | none => .error .notFound := by
  induction phases with
  | nil => rfl
  | cons hs phases ih =>
    rw [searchPhases, List.flatten_cons, List.find?_append]
    cases hs.find? fun h => h.decoder.accepts data with
    | some h => rfl
    | none => exact ih

/-! ## Identities -/

def RegistryCommand.handles : RegistryCommand → List Handle
  | register _ h => [h]
  | registerForProgram _ h => [h]
  | registerAll es => es.map (·.2)
  | loadLayouts _ => []
  | setFallback h => [h]

namespace RegistryLog

/-- The decoder of an identity: a caller's own, or that of a layout that was loaded. -/
def decoder? (log : RegistryLog) (own : Nat → Decoder) : HandleId → Option Decoder
  | .shared n => some (own n)
  | .loaded n => log.layouts[n]?.map fun l => .tagged l.decoder

/-- Callers bring decoders under the identities that these have. -/
def Faithful (own : Nat → Decoder) : RegistryLog → List RegistryCommand → Prop
  | _, [] => True
  | log, c :: cs =>
    (∀ h ∈ c.handles, log.decoder? own h.id = some h.decoder) ∧ Faithful own (log.after c) cs

def Genuine (own : Nat → Decoder) (log : RegistryLog) : Prop :=
  ∀ g ∈ log.accepted, log.decoder? own g.handle.id = some g.handle.decoder

theorem decoder?_append (own : Nat → Decoder) (log new : RegistryLog) (id : HandleId) (d : Decoder)
    (h : log.decoder? own id = some d) : (log ++ new).decoder? own id = some d := by
  cases id with
  | shared n => exact h
  | loaded n =>
    obtain ⟨l, hl, hd⟩ := Option.map_eq_some_iff.mp h
    obtain ⟨hn, -⟩ := List.getElem?_eq_some_iff.mp hl
    rw [decoder?, layouts_append, List.getElem?_append_left hn]
    exact Option.map_eq_some_iff.mpr ⟨l, hl, hd⟩

/-- What a call adds are the handles that it brings and decoders of the layouts that it loads. -/
theorem addition_handle (log new : RegistryLog) (c : RegistryCommand)
    (hnew : log.addition c = .ok new) (g : Registration) (hg : g ∈ new.accepted) :
    g.handle ∈ c.handles ∨ ∃ n l, new.layouts[n]? = some l ∧
      g.handle = ⟨.loaded (log.layouts.length + n), .tagged l.decoder⟩ := by
  cases addition_brings log new c hnew g hg with
  | register => exact .inl List.mem_cons_self
  | registerForProgram => exact .inl List.mem_cons_self
  | registerAll he => exact .inl (List.mem_map_of_mem he)
  | loadLayouts hl => exact .inr ⟨_, _, hl, rfl⟩

theorem after_genuine (own : Nat → Decoder) (log : RegistryLog) (c : RegistryCommand)
    (hc : ∀ h ∈ c.handles, log.decoder? own h.id = some h.decoder) (h : log.Genuine own) :
    (log.after c).Genuine own := by
  rcases after_cases log c with hsame | ⟨new, hnew, hadded⟩
  · rwa [hsame]
  · rw [hadded]
    intro g hg
    rcases List.mem_append.mp hg with hold | hnewer
    · exact decoder?_append own log new _ _ (h g hold)
    · rcases addition_handle log new c hnew g hnewer with hmine | ⟨n, l, hl, hmade⟩
      · exact decoder?_append own log new _ _ (hc g.handle hmine)
      · rw [hmade, decoder?, layouts_append, List.getElem?_append_right (Nat.le_add_right _ n),
          Nat.add_sub_cancel_left, hl]
        rfl

theorem history_genuine (own : Nat → Decoder) (log : RegistryLog) (cs : List RegistryCommand)
    (hcs : Faithful own log cs) (h : log.Genuine own) : (cs.foldl after log).Genuine own := by
  induction cs generalizing log with
  | nil => exact h
  | cons c cs ih => exact ih (log.after c) hcs.2 (after_genuine own log c hcs.1 h)

theorem registry_sound (own : Nat → Decoder) (log : RegistryLog) (h : log.Genuine own) :
    log.registry.Sound where
  owned := registry_owned log
  coherent := by
    rw [registry_decoders]
    intro a ha b hb hid
    obtain ⟨g, hg, rfl⟩ := List.mem_map.mp ha
    obtain ⟨k, hk, rfl⟩ := List.mem_map.mp hb
    have hd := h g hg
    rw [hid, h k hk] at hd
    rw [Handle.mk.injEq]
    exact ⟨hid, (Option.some.inj hd).symm⟩

theorem run_sound (own : Nat → Decoder) (cs : List RegistryCommand)
    (hcs : Faithful own .empty cs) : (RegistryCommand.run .empty cs).Sound := by
  rw [(run_ofHistory cs).1]
  exact registry_sound own _
    (history_genuine own .empty cs hcs fun g hg => absurd hg List.not_mem_nil)

end RegistryLog

/-! ## The search -/

namespace Registry

/-- The decoders that are dropped from the registered ones are among those of the program, so a test
that fails for these does not miss them. -/
theorem filter_dropped (r : Registry) (hr : r.Sound) (test : Handle → Bool)
    (program : Option AccountKey)
    (hfailed : ∀ g ∈ (program.map r.bucket).getD [], ¬test g = true) :
    (r.decoders.filter fun h => !((program.map r.bucket).getD []).any (·.isSame h)).filter test =
      r.decoders.filter test := by
  have hfirst := mem_first r hr.owned program
  generalize (program.map r.bucket).getD [] = first at *
  rw [List.filter_filter]
  apply List.filter_congr
  intro h hh
  by_cases htest : test h = true
  · have hnew : first.any (·.isSame h) = false := by
      rw [List.any_eq_false]
      intro g hg hsame
      have hgh : g = h := hr.coherent g (hfirst g hg) h hh (beq_iff_eq.mp hsame)
      exact hfailed g hg (hgh ▸ htest)
    rw [hnew]
    simp
  · simp [htest]

/-- A decoder that is dropped from the second phase stands in the first one, where it has failed the
test if the second phase is reached at all. -/
theorem find?_phases (r : Registry) (hr : r.Sound) (test : Handle → Bool)
    (program : Option AccountKey) :
    (r.candidates program).all.find? test =
      ((program.map r.bucket).getD [] ++ r.decoders ++ r.fallback.toList).find? test := by
  have hkept := filter_dropped r hr test program
  rw [Candidates.all, candidates]
  generalize (program.map r.bucket).getD [] = first at *
  simp only [List.find?_append]
  cases hf : first.find? test with
  | some g => rfl
  | none => rw [← List.head?_filter, hkept (List.find?_eq_none.mp hf), List.head?_filter]

theorem find?_candidates (r : Registry) (hr : r.Sound) (data : Bytes)
    (program : Option AccountKey) :
    (r.candidates program).resolve data =
      ((program.map r.bucket).getD [] ++ r.decoders ++ r.fallback.toList).find?
        fun h => h.decoder.accepts data :=
  find?_phases r hr (fun h => h.decoder.accepts data) program

end Registry

theorem RegistryLog.phases_flatten (log : RegistryLog) (program : Option AccountKey) :
    (log.phases program).flatten =
      (program.map log.registry.bucket).getD [] ++ log.registry.decoders ++
        log.registry.fallback.toList := by
  rw [funext (registry_bucket log), registry_decoders]
  simp [phases, registry]

/-- In every registry that callers can bring about, dispatch has the outcome of the search in three
phases: the first decoder that accepts the payload decides, whether it succeeds or fails. Asking the
program's decoders once more among all registered ones would find the same decoder. -/
theorem decode_three_phases (own : Nat → Decoder) (cs : List RegistryCommand)
    (hcs : RegistryLog.Faithful own .empty cs) (data : Bytes) (program : Option AccountKey) :
    let r := RegistryCommand.run .empty cs
    let phases := (RegistryLog.ofHistory cs).phases program
    r.decode data program = searchPhases data phases ∧
      (r.candidates program).resolve data =
        phases.flatten.find? fun h => h.decoder.accepts data := by
  intro r phases
  have hlog : r = (RegistryLog.ofHistory cs).registry :=
    (RegistryLog.run_registry .empty cs List.nodup_nil).1
  have hgenuine : (RegistryLog.ofHistory cs).Genuine own :=
    RegistryLog.history_genuine own .empty cs hcs fun g hg => absurd hg List.not_mem_nil
  have hresolve : (r.candidates program).resolve data =
      phases.flatten.find? fun h => h.decoder.accepts data := by
    rw [hlog, RegistryLog.phases_flatten]
    exact Registry.find?_candidates _ (RegistryLog.registry_sound own _ hgenuine) data program
  refine ⟨?_, hresolve⟩
  rw [searchPhases_flatten, ← hresolve]
  rfl

/-- One decoder under three keys and in two buckets, and a fallback that is registered, too. -/
theorem decode_three_phases_shared :
    let p : AccountKey := ⟨List.replicate 32 7, rfl⟩
    let q : AccountKey := ⟨List.replicate 32 9, rfl⟩
    let tag : Tag := ⟨List.replicate 8 1, rfl⟩
    let raw : Decoder := .gated ⟨"Raw", .zero, 0, fun bs => .ok (.bytes bs)⟩
    let swap : Decoder := .tagged ⟨"Swap", p, tag, fun _ => .error "corrupt"⟩
    let own : Nat → Decoder := fun n => if n = 0 then raw else swap
    let cs : List RegistryCommand :=
      [.register "raw" ⟨.shared 0, raw⟩, .register "swap" ⟨.shared 1, swap⟩,
        .registerForProgram q ⟨.shared 1, swap⟩, .registerAll [("again", ⟨.shared 1, swap⟩)],
        .setFallback ⟨.shared 0, raw⟩]
    let r := RegistryCommand.run .empty cs
    RegistryLog.Faithful own .empty cs ∧
      (r.bucket p).map (·.id) = [.shared 1, .shared 1] ∧ (r.bucket q).map (·.id) = [.shared 1] ∧
      r.decode tag.bytes (some q) = .error (.failure "Swap" "corrupt") ∧
      r.decode tag.bytes none = .ok ⟨"Raw", .bytes tag.bytes, tag.bytes, .zero, none⟩ ∧
      r.decode [2] (some p) = .ok ⟨"Raw", .bytes [2], [2], .zero, none⟩ := by
  intro p q tag raw swap own cs r
  have hcs : RegistryLog.Faithful own .empty cs := by
    refine ⟨?_, ?_, ?_, ?_, ?_, trivial⟩ <;> intro h hh <;>
      rw [List.mem_singleton.mp hh] <;> rfl
  have hsearch : ∀ data program, r.decode data program = _ := fun data program =>
    (decode_three_phases own cs hcs data program).1
  refine ⟨hcs, by decide +kernel, by decide +kernel, ?_, ?_, ?_⟩
  · exact (hsearch _ _).trans (by decide +kernel)
  · exact (hsearch _ _).trans (by decide +kernel)
  · exact (hsearch _ _).trans (by decide +kernel)

end TaggedPayload
