import Mathlib.Data.List.Nodup
import TaggedPayload.Proofs.Registry.Calls

/-!
# The log of accepted registrations

A history is the calls on a registry in the order in which they take its lock, whoever makes them.
A call brings registrations. It is accepted as a whole if the layouts it brings can be read and
none of its keys is there twice, in the log or in the call; otherwise it leaves no trace. The
registry after a history is a function of the log of what was accepted: its keys, the decoders of
every program, the fallback and the identities of decoders made from layouts.
-/

set_option autoImplicit false

namespace TaggedPayload

structure Registration where
  key : String
  handle : Handle
  /-- The program that the caller registers the decoder for, if the call names one. -/
  named : Option AccountKey

/-- The program whose decoders a registration joins: the one that is named, else the decoder's own
program unless that is zero. -/
def Registration.owner? (g : Registration) : Option AccountKey :=
  match g.named with
  | some p => some p
  | none => if g.handle.program = .zero then none else some g.handle.program

structure RegistryLog where
  accepted : List Registration
  fallbacks : List Handle
  layouts : List Layout

namespace RegistryLog

def empty : RegistryLog := ⟨[], [], []⟩

instance : Append RegistryLog where
  append log new :=
    ⟨log.accepted ++ new.accepted, log.fallbacks ++ new.fallbacks, log.layouts ++ new.layouts⟩

def keys (log : RegistryLog) : List String := log.accepted.map (·.key)

/-- What a call adds if it is accepted. -/
def addition (log : RegistryLog) : RegistryCommand → Except LayoutFault RegistryLog
  | .register key h => .ok ⟨[⟨key, h, none⟩], [], []⟩
  | .registerForProgram p h => .ok ⟨[⟨p.text, h, some p⟩], [], []⟩
  | .registerAll es => .ok ⟨es.map fun (key, h) => ⟨key, h, none⟩, [], []⟩
  | .loadLayouts yaml =>
    (Layout.readAll yaml).map fun ls =>
      ⟨(ls.zipIdx log.layouts.length).map fun (l, n) =>
        ⟨l.name, ⟨.loaded n, .tagged l.decoder⟩, none⟩, [], ls⟩
  | .setFallback h => .ok ⟨[], [h], []⟩

def after (log : RegistryLog) (c : RegistryCommand) : RegistryLog :=
  match log.addition c with
  | .error _ => log
  | .ok new => if (log.keys ++ new.keys).Nodup then log ++ new else log

/-- What a call brings that adds `new` to a log: registrations of its own decoders, of which one that
names a program has the program's text for its key, or registrations of the layouts it loads. -/
inductive Brings (log new : RegistryLog) : RegistryCommand → Registration → Prop
  | register {key : String} {h : Handle} : Brings log new (.register key h) ⟨key, h, none⟩
  | registerForProgram {p : AccountKey} {h : Handle} :
      Brings log new (.registerForProgram p h) ⟨p.text, h, some p⟩
  | registerAll {es : List (String × Handle)} {e : String × Handle} (mem : e ∈ es) :
      Brings log new (.registerAll es) ⟨e.1, e.2, none⟩
  | loadLayouts {yaml : String} {n : Nat} {l : Layout} (loaded : new.layouts[n]? = some l) :
      Brings log new (.loadLayouts yaml)
        ⟨l.name, ⟨.loaded (log.layouts.length + n), .tagged l.decoder⟩, none⟩

def ofHistory (cs : List RegistryCommand) : RegistryLog := cs.foldl after empty

inductive Answers (log : RegistryLog) (c : RegistryCommand) : Except RegistryError Nat → Prop
  | unreadable {fault : LayoutFault} (h : log.addition c = .error fault) :
      Answers log c (.error (.layout fault))
  /-- The first key that is there twice is reported. -/
  | repeated {new : RegistryLog} {key : String} {before later : List String}
      (h : log.addition c = .ok new) (first : new.keys = before ++ key :: later)
      (fresh : (log.keys ++ before).Nodup) (taken : key ∈ log.keys ++ before) :
      Answers log c (.error (.alreadyRegistered key))
  | accepted {new : RegistryLog} (h : log.addition c = .ok new)
      (fresh : (log.keys ++ new.keys).Nodup) : Answers log c (.ok new.accepted.length)

def registry (log : RegistryLog) : Registry where
  entries := log.accepted.map fun g => (g.key, g.handle)
  owned := log.accepted.filterMap fun g => g.owner?.map fun p => (p, g.handle)
  fallback := log.fallbacks.getLast?
  loaded := log.layouts.length

/-! ## Views of the registry -/

@[simp] theorem accepted_append (log new : RegistryLog) :
    (log ++ new).accepted = log.accepted ++ new.accepted := rfl

@[simp] theorem fallbacks_append (log new : RegistryLog) :
    (log ++ new).fallbacks = log.fallbacks ++ new.fallbacks := rfl

@[simp] theorem layouts_append (log new : RegistryLog) :
    (log ++ new).layouts = log.layouts ++ new.layouts := rfl

@[simp] theorem keys_append (log new : RegistryLog) :
    (log ++ new).keys = log.keys ++ new.keys :=
  List.map_append

theorem registry_keys (log : RegistryLog) : log.registry.keys = log.keys :=
  List.map_map

theorem registry_decoders (log : RegistryLog) :
    log.registry.decoders = log.accepted.map (·.handle) :=
  List.map_map

theorem registry_names (log : RegistryLog) :
    log.registry.names = log.accepted.map (·.handle.name) := by
  rw [Registry.names, registry_decoders, List.map_map]
  rfl

theorem registry_bucket (log : RegistryLog) (p : AccountKey) :
    log.registry.bucket p =
      (log.accepted.filter fun g => g.owner? = some p).map (·.handle) := by
  rw [Registry.bucket, registry]
  generalize log.accepted = gs
  induction gs with
  | nil => rfl
  | cons g gs ih =>
    cases hg : g.owner? with
    | none => simpa [List.filterMap_cons, hg] using ih
    | some q => by_cases hq : q = p <;> simpa [List.filterMap_cons, hg, hq] using ih

theorem registry_get? (log : RegistryLog) (h : log.keys.Nodup) (g : Registration)
    (hg : g ∈ log.accepted) : log.registry.get? g.key = some g.handle := by
  obtain ⟨before, later, hsplit⟩ := List.append_of_mem hg
  rw [keys, hsplit, List.map_append, List.nodup_append] at h
  rw [Registry.get?, List.lookup_eq_some_iff]
  refine ⟨before.map fun g => (g.key, g.handle), later.map fun g => (g.key, g.handle), ?_, ?_⟩
  · rw [registry, hsplit, List.map_append, List.map_cons]
  · intro e he
    obtain ⟨b, hb, rfl⟩ := List.mem_map.mp he
    have hne : b.key ≠ g.key :=
      h.2.2 b.key (List.mem_map_of_mem hb) g.key (by rw [List.map_cons]; exact List.mem_cons_self)
    simpa using hne.symm

end RegistryLog

/-! ## Keys that are there twice -/

namespace Registry

theorem conflict?_none (taken : List String) (es : List (String × Handle)) (h : taken.Nodup)
    (hc : conflict? taken es = none) : (taken ++ es.map (·.1)).Nodup := by
  induction es generalizing taken with
  | nil => simpa using h
  | cons e es ih =>
    rw [conflict?] at hc
    split at hc
    · cases hc
    · next hnew =>
      have hfresh := h.concat (mt List.contains_iff_mem.mpr hnew)
      rw [List.concat_eq_append] at hfresh
      simpa using ih _ hfresh hc

/-- The first key that is taken, when the keys of the entries before it count. -/
theorem conflict?_split (taken : List String) (es : List (String × Handle)) (key : String)
    (hc : conflict? taken es = some key) :
    ∃ before k later, es = before ++ (key, k) :: later ∧
      conflict? taken before = none ∧ key ∈ taken ++ before.map (·.1) := by
  induction es generalizing taken with
  | nil => cases hc
  | cons e es ih =>
    obtain ⟨first, k⟩ := e
    by_cases hfirst : first ∈ taken
    · obtain rfl : first = key := by simpa [conflict?, hfirst] using hc
      exact ⟨[], k, es, rfl, rfl, by simpa using hfirst⟩
    · simp only [conflict?, List.contains_iff_mem, hfirst, if_false] at hc
      obtain ⟨before, k', later, rfl, hbefore, hkey⟩ := ih _ hc
      refine ⟨(first, k) :: before, k', later, rfl, ?_, by simpa using hkey⟩
      simpa [conflict?, hfirst] using hbefore

theorem conflict?_some (taken : List String) (es : List (String × Handle)) (key : String)
    (h : taken.Nodup) (hc : conflict? taken es = some key) :
    ∃ before later, es.map (·.1) = before ++ key :: later ∧ (taken ++ before).Nodup ∧
      key ∈ taken ++ before := by
  obtain ⟨before, k, later, rfl, hfree, hkey⟩ := conflict?_split taken es key hc
  exact ⟨before.map (·.1), later.map (·.1), by simp, conflict?_none taken before h hfree, hkey⟩

end Registry

/-! ## Calls on the registry of a log -/

namespace RegistryLog

theorem registry_insert (log : RegistryLog) (g : Registration) :
    log.registry.insert g.key g.owner? g.handle =
      (log ++ (⟨[g], [], []⟩ : RegistryLog)).registry := by
  have howned : [g].filterMap (fun g => g.owner?.map fun p => (p, g.handle)) =
      (g.owner?.map fun p => (p, g.handle)).toList := by
    cases hg : g.owner? <;> simp [hg]
  simp [Registry.insert, registry, howned]

theorem owner?_unnamed (key : String) (h : Handle) :
    Registration.owner? ⟨key, h, none⟩ = h.scope := by
  simp [Registration.owner?, Handle.scope, AccountKey.isZero]

theorem registry_insertAll (log : RegistryLog) (es : List (String × Handle)) :
    log.registry.insertAll es =
      (log ++ (⟨es.map fun (key, h) => ⟨key, h, none⟩, [], []⟩ : RegistryLog)).registry := by
  induction es generalizing log with
  | nil => simp [Registry.insertAll, registry]
  | cons e es ih =>
    have hfirst := registry_insert log ⟨e.1, e.2, none⟩
    rw [owner?_unnamed] at hfirst
    rw [Registry.insertAll, hfirst, ih]
    simp [registry]

/-- The registry of a log and what a call adds to it, if no key is there twice. -/
def enter (log new : RegistryLog) : Except RegistryError Registry :=
  match Registry.conflict? log.keys new.registry.entries with
  | some key => .error (.alreadyRegistered key)
  | none => .ok (log ++ new).registry

theorem enter_one (log : RegistryLog) (g : Registration) :
    log.enter ⟨[g], [], []⟩ =
      if log.registry.contains g.key then .error (.alreadyRegistered g.key)
      else .ok (log.registry.insert g.key g.owner? g.handle) := by
  have hentries : (⟨[g], [], []⟩ : RegistryLog).registry.entries = [(g.key, g.handle)] := rfl
  rw [enter, hentries, Registry.conflict?, Registry.contains, registry_keys, registry_insert]
  by_cases hk : log.keys.contains g.key = true
  · rw [if_pos hk, if_pos hk]
  · rw [if_neg hk, if_neg hk]
    rfl

theorem enter_all (log : RegistryLog) (es : List (String × Handle)) :
    log.enter ⟨es.map fun (key, h) => ⟨key, h, none⟩, [], []⟩ = log.registry.registerAll es := by
  have hentries : (⟨es.map fun (key, h) => ⟨key, h, none⟩, [], []⟩ :
      RegistryLog).registry.entries = es := by
    simp [registry, Function.comp_def]
  rw [enter, hentries, Registry.registerAll_eq, registry_keys]
  cases Registry.conflict? log.keys es with
  | none => exact congrArg Except.ok (registry_insertAll log es).symm
  | some key => rfl

theorem enter_layouts (log : RegistryLog) (gs : List Registration) (ls : List Layout) :
    log.enter ⟨gs, [], ls⟩ =
      (log.enter ⟨gs, [], []⟩).map fun r => { r with loaded := r.loaded + ls.length } := by
  have hentries : (⟨gs, [], ls⟩ : RegistryLog).registry.entries =
      (⟨gs, [], []⟩ : RegistryLog).registry.entries := rfl
  rw [enter, enter, hentries]
  cases Registry.conflict? log.keys (⟨gs, [], []⟩ : RegistryLog).registry.entries with
  | some key => rfl
  | none => simp [registry, Except.map]

/-- Every call enters its addition as a whole. -/
theorem apply_registry (log : RegistryLog) (c : RegistryCommand) :
    c.apply log.registry =
      match log.addition c with
      | .error fault => .error (.layout fault)
      | .ok new => log.enter new := by
  cases c with
  | register key h =>
    show log.registry.register key h = log.enter ⟨[⟨key, h, none⟩], [], []⟩
    rw [enter_one, owner?_unnamed, Registry.register_eq]
  | registerForProgram p h =>
    show log.registry.registerForProgram p h = log.enter ⟨[⟨p.text, h, some p⟩], [], []⟩
    rw [enter_one, Registry.registerForProgram_eq]
    rfl
  | registerAll es => exact (enter_all log es).symm
  | loadLayouts yaml =>
    rw [RegistryCommand.apply, Registry.loadLayouts_eq, addition]
    cases Layout.readAll yaml with
    | error fault => rfl
    | ok ls =>
      have hall := enter_all log (Registry.loadedEntries log.layouts.length ls)
      rw [Registry.loadedEntries_eq, List.map_map] at hall
      show (log.registry.registerAll (Registry.loadedEntries log.layouts.length ls)).map _ =
        log.enter ⟨_, [], ls⟩
      rw [enter_layouts, Registry.loadedEntries_eq, ← hall]
      rfl
  | setFallback h =>
    show .ok (log.registry.setFallback h) = log.enter ⟨[], [h], []⟩
    simp [enter, registry, Registry.conflict?, Registry.setFallback]

/-! ## Additions -/

/-- A call that is not refused adds to the log. -/
theorem after_cases (log : RegistryLog) (c : RegistryCommand) :
    log.after c = log ∨ ∃ new, log.addition c = .ok new ∧ log.after c = log ++ new := by
  cases hnew : log.addition c with
  | error fault => exact .inl (by rw [after, hnew])
  | ok new =>
    by_cases hfresh : (log.keys ++ new.keys).Nodup
    · exact .inr ⟨new, rfl, by simp only [after, hnew, if_pos hfresh]⟩
    · exact .inl (by simp only [after, hnew, if_neg hfresh])

theorem addition_brings (log new : RegistryLog) (c : RegistryCommand)
    (hnew : log.addition c = .ok new) (g : Registration) (hg : g ∈ new.accepted) :
    Brings log new c g := by
  cases c with
  | register key h =>
    cases hnew
    rw [List.mem_singleton.mp hg]
    exact .register
  | registerForProgram p h =>
    cases hnew
    rw [List.mem_singleton.mp hg]
    exact .registerForProgram
  | registerAll es =>
    cases hnew
    obtain ⟨e, he, rfl⟩ := List.mem_map.mp hg
    exact .registerAll he
  | loadLayouts yaml =>
    rw [addition] at hnew
    cases hread : Layout.readAll yaml with
    | error fault =>
      rw [hread] at hnew
      cases hnew
    | ok ls =>
      rw [hread] at hnew
      cases hnew
      obtain ⟨⟨l, i⟩, hl, rfl⟩ := List.mem_map.mp hg
      obtain ⟨hi, hl⟩ := List.mem_zipIdx_iff_le_and_getElem?_sub.mp hl
      obtain ⟨n, rfl⟩ := Nat.exists_eq_add_of_le hi
      rw [Nat.add_sub_cancel_left] at hl
      exact .loadLayouts hl
  | setFallback h =>
    cases hnew
    cases hg

/-! ## Histories -/

theorem registry_size (log : RegistryLog) : log.registry.size = log.accepted.length :=
  List.length_map _

theorem not_nodup_repeated (log new : RegistryLog) (key : String) (before later : List String)
    (hnew : new.keys = before ++ key :: later) (taken : key ∈ log.keys ++ before) :
    ¬(log.keys ++ new.keys).Nodup := by
  rw [hnew, ← List.append_assoc, List.nodup_append]
  rintro ⟨-, -, hne⟩
  exact hne key taken key List.mem_cons_self rfl

/-- One call answers as the log says, and leads to the registry of the next log. -/
theorem perform_registry (log : RegistryLog) (c : RegistryCommand) (h : log.keys.Nodup) :
    log.Answers c (c.perform log.registry).2.result ∧
      (c.perform log.registry).1 = (log.after c).registry ∧ (log.after c).keys.Nodup := by
  cases hnew : log.addition c with
  | error fault =>
    have happly : c.apply log.registry = .error (.layout fault) := by rw [apply_registry, hnew]
    simp only [RegistryCommand.perform_eq, happly, after, hnew]
    exact ⟨.unreadable hnew, trivial, h⟩
  | ok new =>
    have happly : c.apply log.registry = log.enter new := by rw [apply_registry, hnew]
    rw [enter] at happly
    have hkeys : new.registry.entries.map (·.1) = new.keys := registry_keys new
    cases hc : Registry.conflict? log.keys new.registry.entries with
    | some key =>
      rw [hc] at happly
      obtain ⟨before, later, hfirst, hfresh, htaken⟩ := Registry.conflict?_some _ _ key h hc
      rw [hkeys] at hfirst
      have hdup := not_nodup_repeated log new key before later hfirst htaken
      simp only [RegistryCommand.perform_eq, happly, after, hnew, if_neg hdup]
      exact ⟨.repeated hnew hfirst hfresh htaken, trivial, h⟩
    | none =>
      rw [hc] at happly
      have hfresh := Registry.conflict?_none _ _ h hc
      rw [hkeys] at hfresh
      simp only [RegistryCommand.perform_eq, happly, after, hnew, if_pos hfresh]
      refine ⟨?_, trivial, by rwa [keys_append]⟩
      rw [registry_size, registry_size, accepted_append, List.length_append,
        Nat.add_sub_cancel_left]
      exact .accepted hnew hfresh

theorem run_registry (log : RegistryLog) (cs : List RegistryCommand) (h : log.keys.Nodup) :
    RegistryCommand.run log.registry cs = (cs.foldl after log).registry ∧
      (cs.foldl after log).keys.Nodup := by
  induction cs generalizing log with
  | nil => exact ⟨rfl, h⟩
  | cons c cs ih =>
    obtain ⟨-, hstep, hnodup⟩ := perform_registry log c h
    rw [RegistryCommand.run, hstep]
    exact ih (log.after c) hnodup

theorem run_ofHistory (cs : List RegistryCommand) :
    RegistryCommand.run .empty cs = (ofHistory cs).registry ∧ (ofHistory cs).keys.Nodup :=
  run_registry .empty cs List.nodup_nil

theorem registry_owned (log : RegistryLog) :
    ∀ e ∈ log.registry.owned, e.2 ∈ log.registry.decoders := by
  intro e he
  obtain ⟨g, hg, hp⟩ := List.mem_filterMap.mp he
  obtain ⟨p, -, rfl⟩ := Option.map_eq_some_iff.mp hp
  rw [registry_decoders]
  exact List.mem_map_of_mem hg

theorem mem_bucket_registry (log : RegistryLog) (p : AccountKey) (h : Handle)
    (hh : h ∈ log.registry.bucket p) : ∃ g ∈ log.accepted, g.handle = h := by
  rw [registry_bucket] at hh
  obtain ⟨g, hg, rfl⟩ := List.mem_map.mp hh
  exact ⟨g, (List.mem_filter.mp hg).1, rfl⟩

end RegistryLog

/-- The registry after any history is the one that the log of accepted registrations describes, and
the next call is answered from the log: it is accepted as a whole or changes nothing. -/
theorem history_in_log (cs : List RegistryCommand) :
    let r := RegistryCommand.run .empty cs
    let log := RegistryLog.ofHistory cs
    r = log.registry ∧ r.keys.Nodup ∧ r.keys = log.accepted.map (·.key) ∧
      r.names = log.accepted.map (·.handle.name) ∧
      (∀ g ∈ log.accepted, r.get? g.key = some g.handle) ∧
      (∀ p, r.bucket p = (log.accepted.filter fun g => g.owner? = some p).map (·.handle)) ∧
      (∀ p, ∀ h ∈ r.bucket p, ∃ key ∈ r.keys, r.get? key = some h) ∧
      r.fallback = log.fallbacks.getLast? ∧
      ∀ c, log.Answers c (c.perform r).2.result ∧
        ∀ e, (c.perform r).2.result = .error e → (c.perform r).1 = r := by
  intro r log
  obtain ⟨hr, hnodup⟩ : r = log.registry ∧ log.keys.Nodup :=
    RegistryLog.run_registry .empty cs List.nodup_nil
  rw [hr]
  refine ⟨rfl, ?_, ?_, ?_, ?_, ?_, ?_, ?_, ?_⟩
  · rwa [RegistryLog.registry_keys]
  · exact RegistryLog.registry_keys log
  · exact RegistryLog.registry_names log
  · exact RegistryLog.registry_get? log hnodup
  · exact RegistryLog.registry_bucket log
  · intro p h hh
    obtain ⟨g, hg, rfl⟩ := RegistryLog.mem_bucket_registry log p h hh
    refine ⟨g.key, ?_, RegistryLog.registry_get? log hnodup g hg⟩
    rw [RegistryLog.registry_keys]
    exact List.mem_map_of_mem hg
  · rfl
  · intro c
    exact ⟨(RegistryLog.perform_registry log c hnodup).1, RegistryCommand.perform_failed _ c⟩

/-- Eight calls of five kinds, three of them refused: a taken key, a bad second layout and a key
that comes twice. -/
theorem history_in_log_refused :
    let p : AccountKey := ⟨List.replicate 32 9, rfl⟩
    let swap : Handle := ⟨.shared 0, .gated ⟨"Swap", p, 0, fun _ => .ok .null⟩⟩
    let raw : Handle := ⟨.shared 1, .gated ⟨"Raw", .zero, 8, fun _ => .ok .null⟩⟩
    let opening := "layout Open:\n  discriminator: '0000000000000001'\n  fields:\n"
    let cs : List RegistryCommand :=
      [.register "swap" swap, .registerForProgram p raw, .registerAll [("raw", raw), ("swap", raw)],
        .loadLayouts (opening ++ "---\nlayout Bad:\n  fields:\n    x: float\n"),
        .registerAll [("raw", raw), ("raw", swap)], .loadLayouts opening, .setFallback swap,
        .setFallback raw]
    let r := RegistryCommand.run .empty cs
    r.keys = ["swap", p.text, "Open"] ∧ r.names = ["Swap", "Raw", "Open"] ∧
      (r.bucket p).map (·.id) = [.shared 0, .shared 1] ∧
      (∃ h ∈ r.bucket p, h.id = .shared 1 ∧ ∃ key ∈ r.keys, r.get? key = some h) ∧
      r.fallback.map (·.id) = some (.shared 1) ∧
      let again := RegistryCommand.loadLayouts opening
      (again.perform r).2.result = .error (.alreadyRegistered "Open") ∧
        (again.perform r).1 = r := by
  intro p swap raw opening cs r
  obtain ⟨-, -, -, -, -, -, hmember, -, hcalls⟩ := history_in_log cs
  have hrun : r.keys = ["swap", p.text, "Open"] ∧ r.names = ["Swap", "Raw", "Open"] ∧
      (r.bucket p).map (·.id) = [.shared 0, .shared 1] ∧
      r.fallback.map (·.id) = some (.shared 1) ∧
      ((RegistryCommand.loadLayouts opening).perform r).2.result =
        .error (.alreadyRegistered "Open") := by decide +kernel
  obtain ⟨hkeys, hnames, hbucket, hfallback, hagain⟩ := hrun
  refine ⟨hkeys, hnames, hbucket, ?_, hfallback, hagain, (hcalls _).2 _ hagain⟩
  obtain ⟨h, hh, hid⟩ : ∃ h ∈ r.bucket p, h.id = .shared 1 := by
    rw [← List.mem_map, hbucket]
    exact List.mem_cons_of_mem _ List.mem_cons_self
  exact ⟨h, hh, hid, hmember p h hh⟩

end TaggedPayload
