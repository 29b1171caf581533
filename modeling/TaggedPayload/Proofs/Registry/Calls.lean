import TaggedPayload.Registry.Command

/-!
# What a call leaves behind

A call can change a registry before it fails. None of the calls does: keys are checked while nothing
is inserted yet, and after the check nothing fails. So a call that fails leaves the registry as it
was, and a call that succeeds adds as many decoders as it says.
-/

set_option autoImplicit false

namespace TaggedPayload

namespace Registry

/-- The first key that is taken, by the registry or by an entry before it. -/
def conflict? (taken : List String) : List (String × Handle) → Option String
  | [] => none
  | (key, _) :: es => if taken.contains key then some key else conflict? (taken ++ [key]) es

def insertAll (r : Registry) : List (String × Handle) → Registry
  | [] => r
  | (key, h) :: es => (r.insert key h.scope h).insertAll es

theorem insert_size (r : Registry) (key : String) (program : Option AccountKey) (h : Handle) :
    (r.insert key program h).size = r.size + 1 := by
  rw [size, insert, List.length_append]
  rfl

theorem insertAll_entries (r : Registry) (es : List (String × Handle)) :
    (r.insertAll es).entries = r.entries ++ es := by
  induction es generalizing r with
  | nil => rw [insertAll, List.append_nil]
  | cons e es ih =>
    rw [insertAll, ih, insert, List.append_assoc]
    rfl

theorem insertAll_size (r : Registry) (es : List (String × Handle)) :
    (r.insertAll es).size = r.size + es.length := by
  rw [size, insertAll_entries, List.length_append]
  rfl

theorem loadedEntries_eq (n : Nat) (ls : List Layout) :
    loadedEntries n ls =
      (ls.zipIdx n).map fun p => (p.1.name, ⟨.loaded p.2, .tagged p.1.decoder⟩) := by
  induction ls generalizing n with
  | nil => rfl
  | cons l ls ih => rw [loadedEntries, ih, List.zipIdx_cons, List.map_cons]

theorem loadedEntries_length (n : Nat) (ls : List Layout) :
    (loadedEntries n ls).length = ls.length := by
  rw [loadedEntries_eq, List.length_map, List.length_zipIdx]

end Registry

namespace RegistryCall

variable {α β : Type}

/-! ## Calls in sequence -/

@[simp] theorem on_pure (a : α) (r : Registry) : on (pure a) r = (.ok a, r) := rfl

@[simp] theorem on_get (r : Registry) : on (get : RegistryCall Registry) r = (.ok r, r) := rfl

@[simp] theorem on_modify (f : Registry → Registry) (r : Registry) :
    on (modify f : RegistryCall Unit) r = (.ok (), f r) := rfl

theorem on_bind (c : RegistryCall α) (next : α → RegistryCall β) (r : Registry) :
    on (c >>= next) r =
      match c.on r with
      | (.ok a, r') => (next a).on r'
      | (.error e, r') => (.error e, r') := by
  show (match c.on r with | (answer, r') => Id.run (ExceptT.bindCont next answer r')) = _
  obtain ⟨a | e, r'⟩ := c.on r <;> rfl

theorem after_pure (c : RegistryCall α) (b : β) (r : Registry) :
    after (do let _ ← c; pure b) r = c.after r := by
  rw [after, on_bind, after]
  obtain ⟨a | e, r'⟩ := c.on r <;> rfl

/-! ## Calls that fail -/

def ReadOnly (c : RegistryCall α) : Prop :=
  ∀ r, (c.on r).2 = r

def Total (c : RegistryCall α) : Prop :=
  ∀ r, ∃ a r', c.on r = (.ok a, r')

/-- The call leaves no trace if it fails. -/
def AllOrNothing (c : RegistryCall α) : Prop :=
  ∀ r r' e, c.on r = (.error e, r') → r' = r

/-- The answer is how many decoders the call adds. -/
def Counts (c : RegistryCall Nat) : Prop :=
  ∀ r r' n, c.on r = (.ok n, r') → r'.size = r.size + n

theorem get_readOnly : ReadOnly (get : RegistryCall Registry) := fun _ => rfl

theorem modify_total (f : Registry → Registry) : Total (modify f : RegistryCall Unit) :=
  fun r => ⟨(), f r, rfl⟩

theorem pure_total (a : α) : Total (pure a : RegistryCall α) :=
  fun r => ⟨a, r, rfl⟩

theorem Total.bind {c : RegistryCall α} {next : α → RegistryCall β} (hc : c.Total)
    (hnext : ∀ a, (next a).Total) : Total (c >>= next) := by
  intro r
  obtain ⟨a, r', ha⟩ := hc r
  obtain ⟨b, r'', hb⟩ := hnext a r'
  exact ⟨b, r'', by rw [on_bind, ha]; exact hb⟩

theorem ReadOnly.allOrNothing {c : RegistryCall α} (hc : c.ReadOnly) : c.AllOrNothing := by
  intro r r' e h
  rw [← hc r, h]

theorem Total.allOrNothing {c : RegistryCall α} (hc : c.Total) : c.AllOrNothing := by
  intro r r' e h
  obtain ⟨a, r'', ha⟩ := hc r
  rw [ha] at h
  cases h

theorem on_bind_ok {c : RegistryCall α} (next : α → RegistryCall β) {r s : Registry} {a : α}
    (h : c.on r = (.ok a, s)) : (c >>= next).on r = (next a).on s := by
  rw [on_bind, h]

theorem on_bind_error {c : RegistryCall α} (next : α → RegistryCall β) {r s : Registry}
    {e : RegistryError} (h : c.on r = (.error e, s)) : (c >>= next).on r = (.error e, s) := by
  rw [on_bind, h]

/-- A failure behind a part that only reads is one of the rest, which starts where the whole did. -/
theorem ReadOnly.bind {c : RegistryCall α} {next : α → RegistryCall β} (hc : c.ReadOnly)
    (hnext : ∀ a, (next a).AllOrNothing) : AllOrNothing (c >>= next) := by
  intro r r' e h
  have hr := hc r
  cases hon : c.on r with
  | mk answer s =>
    rw [hon] at hr
    obtain rfl : s = r := hr
    cases answer with
    | ok a =>
      rw [on_bind_ok next hon] at h
      exact hnext a s r' e h
    | error e' =>
      rw [on_bind_error next hon] at h
      exact (Prod.mk.inj h).2.symm

theorem AllOrNothing.bind {c : RegistryCall α} {next : α → RegistryCall β} (hc : c.AllOrNothing)
    (hnext : ∀ a, (next a).Total) : AllOrNothing (c >>= next) := by
  intro r r' e h
  cases hon : c.on r with
  | mk answer s =>
    cases answer with
    | ok a =>
      obtain ⟨b, s', hb⟩ := hnext a s
      rw [on_bind_ok next hon, hb] at h
      cases h
    | error e' =>
      rw [on_bind_error next hon] at h
      cases h
      exact hc r r' e hon

/-! ## The calls -/

theorem refuse_on (key : String) (taken : Bool) (r : Registry) :
    (refuse key taken).on r =
      (if taken then .error (.alreadyRegistered key) else .ok (), r) := by
  cases taken <;> rfl

theorem refuse_readOnly (key : String) (taken : Bool) : (refuse key taken).ReadOnly := by
  intro r
  rw [refuse_on]

theorem enlist_on (key : String) (program : Option AccountKey) (h : Handle) (r : Registry) :
    (enlist key program h).on r =
      if r.contains key then (.error (.alreadyRegistered key), r)
      else (.ok (), r.insert key program h) := by
  simp only [enlist, on_bind, on_get, refuse_on]
  cases r.contains key <;> rfl

theorem enlist_after (key : String) (program : Option AccountKey) (h : Handle) (r : Registry) :
    (enlist key program h).after r =
      if r.contains key then .error (.alreadyRegistered key) else .ok (r.insert key program h) := by
  rw [after, enlist_on]
  cases r.contains key <;> rfl

theorem enlist_counts (key : String) (program : Option AccountKey) (h : Handle) :
    Counts (do enlist key program h; return 1) := by
  intro r r' n hon
  rw [on_bind, enlist_on] at hon
  cases hkey : r.contains key with
  | true => simp [hkey] at hon
  | false =>
    simp only [hkey, Bool.false_eq_true, if_false, on_pure] at hon
    cases hon
    exact Registry.insert_size r key program h

theorem enlist_allOrNothing (key : String) (program : Option AccountKey) (h : Handle) :
    (enlist key program h).AllOrNothing :=
  get_readOnly.bind fun _ => (refuse_readOnly _ _).bind fun _ => (modify_total _).allOrNothing

theorem checkKeys_on (before : List String) (es : List (String × Handle)) (r : Registry) :
    (checkKeys before es).on r =
      (match Registry.conflict? (r.keys ++ before) es with
        | some key => .error (.alreadyRegistered key)
        | none => .ok (), r) := by
  induction es generalizing before with
  | nil => rfl
  | cons e es ih =>
    obtain ⟨key, h⟩ := e
    have htaken : (r.keys ++ before).contains key = (before.contains key || r.contains key) := by
      rw [List.contains_append, Bool.or_comm]
      rfl
    simp only [checkKeys, on_bind, on_get, refuse_on, Registry.conflict?, htaken, List.append_assoc]
    cases before.contains key || r.contains key with
    | true => rfl
    | false => exact ih (before ++ [key])

theorem insertEach_on (es : List (String × Handle)) (r : Registry) :
    (insertEach es).on r = (.ok (), r.insertAll es) := by
  induction es generalizing r with
  | nil => rfl
  | cons e es ih =>
    rw [insertEach, on_bind, on_modify]
    exact ih _

theorem registerAll_on (es : List (String × Handle)) (r : Registry) :
    (registerAll es).on r =
      match Registry.conflict? r.keys es with
      | some key => (.error (.alreadyRegistered key), r)
      | none => (.ok es.length, r.insertAll es) := by
  rw [registerAll, on_bind, checkKeys_on, List.append_nil]
  cases Registry.conflict? r.keys es with
  | some key => rfl
  | none => simp only [on_bind, insertEach_on, on_pure]

theorem registerAll_counts (es : List (String × Handle)) : (registerAll es).Counts := by
  intro r r' n hon
  rw [registerAll_on] at hon
  split at hon
  · cases hon
  · cases hon
    exact Registry.insertAll_size r es

theorem registerAll_allOrNothing (es : List (String × Handle)) :
    (registerAll es).AllOrNothing := by
  have hcheck : (checkKeys [] es).ReadOnly := fun r => by rw [checkKeys_on]
  have hinsert : (insertEach es).Total := fun r => ⟨(), r.insertAll es, insertEach_on es r⟩
  exact hcheck.bind fun _ => (hinsert.bind fun _ => pure_total _).allOrNothing

theorem loadLayouts_on (yaml : String) (r : Registry) :
    (loadLayouts yaml).on r =
      match Layout.readAll yaml with
      | .error f => (.error (.layout f), r)
      | .ok ls =>
        match (registerAll (Registry.loadedEntries r.loaded ls)).on r with
        | (.ok n, r') => (.ok n, { r' with loaded := r'.loaded + n })
        | (.error e, r') => (.error e, r') := by
  rw [loadLayouts]
  cases Layout.readAll yaml with
  | error f => rfl
  | ok ls =>
    simp only [on_bind, on_get]
    obtain ⟨n | e, r'⟩ := (registerAll (Registry.loadedEntries r.loaded ls)).on r <;> rfl

theorem loadLayouts_counts (yaml : String) : (loadLayouts yaml).Counts := by
  intro r r' n hon
  rw [loadLayouts_on] at hon
  split at hon
  · cases hon
  · next ls _ =>
    split at hon
    · next s hall =>
      cases hon
      exact registerAll_counts _ r s n hall
    · cases hon

theorem loadLayouts_allOrNothing (yaml : String) : (loadLayouts yaml).AllOrNothing := by
  rw [loadLayouts]
  cases Layout.readAll yaml with
  | error f => exact ReadOnly.allOrNothing fun _ => rfl
  | ok ls =>
    exact get_readOnly.bind fun r => (registerAll_allOrNothing _).bind fun n =>
      (modify_total _).bind fun _ => pure_total n

end RegistryCall

/-! ## Registries after calls that succeed -/

namespace Registry

theorem register_eq (r : Registry) (key : String) (h : Handle) :
    r.register key h =
      if r.contains key then .error (.alreadyRegistered key) else .ok (r.insert key h.scope h) :=
  RegistryCall.enlist_after key h.scope h r

theorem registerForProgram_eq (r : Registry) (p : AccountKey) (h : Handle) :
    r.registerForProgram p h =
      if r.contains p.text then .error (.alreadyRegistered p.text)
      else .ok (r.insert p.text (some p) h) :=
  RegistryCall.enlist_after p.text (some p) h r

theorem registerAll_eq (r : Registry) (es : List (String × Handle)) :
    r.registerAll es =
      match conflict? r.keys es with
      | some key => .error (.alreadyRegistered key)
      | none => .ok (r.insertAll es) := by
  rw [registerAll, RegistryCall.after, RegistryCall.registerAll_on]
  cases conflict? r.keys es <;> rfl

theorem loadLayouts_eq (r : Registry) (yaml : String) :
    r.loadLayouts yaml =
      match Layout.readAll yaml with
      | .error f => .error (.layout f)
      | .ok ls =>
        (r.registerAll (loadedEntries r.loaded ls)).map fun r =>
          { r with loaded := r.loaded + ls.length } := by
  rw [loadLayouts, RegistryCall.after, RegistryCall.loadLayouts_on]
  cases Layout.readAll yaml with
  | error f => rfl
  | ok ls =>
    simp only [RegistryCall.registerAll_on, registerAll_eq]
    cases conflict? r.keys (loadedEntries r.loaded ls) with
    | some key => rfl
    | none => simp [Except.map, loadedEntries_length]

end Registry

namespace RegistryCommand

def apply (r : Registry) : RegistryCommand → Except RegistryError Registry
  | register key h => r.register key h
  | registerForProgram p h => r.registerForProgram p h
  | registerAll es => r.registerAll es
  | loadLayouts yaml => r.loadLayouts yaml
  | setFallback h => .ok (r.setFallback h)

theorem call_after (c : RegistryCommand) (r : Registry) : c.call.after r = c.apply r := by
  cases c with
  | register key h => exact RegistryCall.after_pure _ _ r
  | registerForProgram p h => exact RegistryCall.after_pure _ _ r
  | registerAll es => rfl
  | loadLayouts yaml => rfl
  | setFallback h => rfl

theorem call_allOrNothing (c : RegistryCommand) : c.call.AllOrNothing := by
  cases c with
  | register key h =>
    exact (RegistryCall.enlist_allOrNothing key h.scope h).bind fun _ => RegistryCall.pure_total 1
  | registerForProgram p h =>
    exact (RegistryCall.enlist_allOrNothing p.text (some p) h).bind fun _ =>
      RegistryCall.pure_total 1
  | registerAll es => exact RegistryCall.registerAll_allOrNothing es
  | loadLayouts yaml => exact RegistryCall.loadLayouts_allOrNothing yaml
  | setFallback h =>
    exact ((RegistryCall.modify_total _).bind fun _ => RegistryCall.pure_total 0).allOrNothing

theorem call_counts (c : RegistryCommand) : c.call.Counts := by
  cases c with
  | register key h => exact RegistryCall.enlist_counts key h.scope h
  | registerForProgram p h => exact RegistryCall.enlist_counts p.text (some p) h
  | registerAll es => exact RegistryCall.registerAll_counts es
  | loadLayouts yaml => exact RegistryCall.loadLayouts_counts yaml
  | setFallback h =>
    intro r r' n hon
    cases hon
    rfl

/-- A call that fails changes nothing. -/
theorem perform_failed (r : Registry) (c : RegistryCommand) (e : RegistryError)
    (h : (c.perform r).2.result = .error e) : (c.perform r).1 = r := by
  rw [perform] at h ⊢
  cases hon : c.call.on r with
  | mk answer r' =>
    rw [hon] at h
    cases answer with
    | ok n => cases h
    | error e' => exact call_allOrNothing c r r' e' hon

theorem perform_eq (r : Registry) (c : RegistryCommand) :
    c.perform r =
      match c.apply r with
      | .ok r' => (r', ⟨.ok (r'.size - r.size), c.report⟩)
      | .error e => (r, ⟨.error e, []⟩) := by
  rw [perform, ← call_after, RegistryCall.after]
  cases hon : c.call.on r with
  | mk answer r' =>
    cases answer with
    | ok n =>
      have hsize := call_counts c r r' n hon
      simp only [hsize, Nat.add_sub_cancel_left]
    | error e =>
      obtain rfl := call_allOrNothing c r r' e hon
      rfl

end RegistryCommand

end TaggedPayload
