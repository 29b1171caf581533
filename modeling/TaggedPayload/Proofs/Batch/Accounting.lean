import TaggedPayload.Batch.Sequential
import TaggedPayload.Proofs.Batch.Places
import TaggedPayload.Registry.Command

/-!
# Accounts of a sequential batch

Every payload that a sequential batch looks at is accounted for once, as an event or as a failure.
Without a bound on failures, or with fewer failures than the bound, these are all payloads; otherwise
the batch ends at the payload whose failure reaches the bound. Failures count whether they are kept
or not, so keeping them changes no event.
-/

set_option autoImplicit false

namespace TaggedPayload

def fault? : Except DecodeError Event → Option DecodeError
  | .ok _ => none
  | .error fault => some fault

def successes (decode : Bytes → Except DecodeError Event) (ps : List Bytes) : List Event :=
  ps.filterMap fun data => (decode data).toOption

/-- The failures among payloads, the first of which has the place `start`. -/
def failuresFrom (start : Nat) (decode : Bytes → Except DecodeError Event) (ps : List Bytes) :
    List (Nat × DecodeError) :=
  placedFrom start (fun data => fault? (decode data)) ps

/-- The failures that are kept of those that were met. -/
def BatchOptions.kept (options : BatchOptions) (failures : List (Nat × DecodeError)) :
    List (Nat × DecodeError) :=
  if options.collectErrors then failures else []

theorem BatchOptions.kept_append (options : BatchOptions) (fs gs : List (Nat × DecodeError)) :
    options.kept (fs ++ gs) = options.kept fs ++ options.kept gs := by
  rw [kept, kept, kept]
  cases options.collectErrors <;> rfl

/-! ## Successes and failures -/

variable (decode : Bytes → Except DecodeError Event)

theorem failuresFrom_ok (start : Nat) (data : Bytes) (rest : List Bytes) (e : Event)
    (h : decode data = .ok e) :
    failuresFrom start decode (data :: rest) = failuresFrom (start + 1) decode rest := by
  rw [failuresFrom, placedFrom_cons, h]
  rfl

theorem failuresFrom_error (start : Nat) (data : Bytes) (rest : List Bytes) (fault : DecodeError)
    (h : decode data = .error fault) :
    failuresFrom start decode (data :: rest) =
      (start, fault) :: failuresFrom (start + 1) decode rest := by
  rw [failuresFrom, placedFrom_cons, h]
  rfl

theorem successes_ok (data : Bytes) (rest : List Bytes) (e : Event) (h : decode data = .ok e) :
    successes decode (data :: rest) = e :: successes decode rest :=
  List.filterMap_cons_some (by rw [h]; rfl)

theorem successes_error (data : Bytes) (rest : List Bytes) (fault : DecodeError)
    (h : decode data = .error fault) :
    successes decode (data :: rest) = successes decode rest :=
  List.filterMap_cons_none (by rw [h]; rfl)

theorem successes_append (ps qs : List Bytes) :
    successes decode (ps ++ qs) = successes decode ps ++ successes decode qs :=
  List.filterMap_append

/-- Every payload is a success or a failure. -/
theorem successes_failures (start : Nat) (ps : List Bytes) :
    (successes decode ps).length + (failuresFrom start decode ps).length = ps.length := by
  induction ps generalizing start with
  | nil => rfl
  | cons data rest ih =>
    have hrest := ih (start + 1)
    rw [List.length_cons]
    cases hd : decode data with
    | ok e =>
      rw [successes_ok decode data rest e hd, failuresFrom_ok decode start data rest e hd,
        List.length_cons]
      omega
    | error fault =>
      rw [successes_error decode data rest fault hd,
        failuresFrom_error decode start data rest fault hd, List.length_cons]
      omega

theorem mem_failures (ps : List Bytes) (i : Nat) (fault : DecodeError) :
    (i, fault) ∈ failuresFrom 0 decode ps ↔
      ∃ data, ps[i]? = some data ∧ decode data = .error fault := by
  rw [failuresFrom, mem_placed]
  refine exists_congr fun data => and_congr_right fun _ => ?_
  cases decode data <;> simp [fault?]

theorem failuresFrom_split (front rest : List Bytes) (data : Bytes) (fault : DecodeError)
    (h : decode data = .error fault) :
    failuresFrom 0 decode (front ++ data :: rest) =
      failuresFrom 0 decode front ++
        (front.length, fault) :: failuresFrom (front.length + 1) decode rest := by
  rw [← failuresFrom_error decode front.length data rest fault h, failuresFrom, placedFrom_append,
    Nat.zero_add]
  rfl

/-! ## The run -/

variable (options : BatchOptions)

/-- The bound is not reached by so many failures. -/
def BatchOptions.Allows (failed : Nat) : Prop :=
  options.maxErrors = 0 ∨ failed < options.maxErrors

/-- A run over payloads whose failures do not reach the bound goes on behind them. -/
theorem tally_append (index failed : Nat) (front rest : List Bytes)
    (h : options.Allows (failed + (failuresFrom index decode front).length)) :
    let t := tally decode options (index + front.length)
      (failed + (failuresFrom index decode front).length) rest
    tally decode options index failed (front ++ rest) =
      ⟨successes decode front ++ t.events,
        options.kept (failuresFrom index decode front) ++ t.errors, t.stopped⟩ := by
  induction front generalizing index failed with
  | nil => simp [failuresFrom, successes, BatchOptions.kept]
  | cons data front ih =>
    have hplace : index + (data :: front).length = index + 1 + front.length := by
      rw [List.length_cons]
      omega
    rw [List.cons_append, hplace]
    cases hd : decode data with
    | ok e =>
      rw [failuresFrom_ok decode index data front e hd] at h ⊢
      rw [successes_ok decode data front e hd]
      simp only [tally, hd, ih (index + 1) failed h, List.cons_append]
    | error fault =>
      have hcount : failed + (failuresFrom index decode (data :: front)).length =
          failed + 1 + (failuresFrom (index + 1) decode front).length := by
        rw [failuresFrom_error decode index data front fault hd, List.length_cons]
        omega
      rw [hcount] at h ⊢
      have hgoes : ¬(0 < options.maxErrors ∧ options.maxErrors ≤ failed + 1) := by
        rcases h with h | h <;> omega
      rw [successes_error decode data front fault hd,
        failuresFrom_error decode index data front fault hd]
      simp only [tally, hd, if_neg hgoes, ih (index + 1) (failed + 1) h]
      cases hkeep : options.collectErrors <;> simp [BatchOptions.kept, hkeep]

theorem tally_complete (ps : List Bytes)
    (h : options.Allows (failuresFrom 0 decode ps).length) :
    tally decode options 0 0 ps =
      ⟨successes decode ps, options.kept (failuresFrom 0 decode ps), none⟩ := by
  have happend := tally_append decode options 0 0 ps [] (by rwa [Nat.zero_add])
  rw [List.append_nil] at happend
  rw [happend]
  simp [tally]

theorem tally_last (index failed : Nat) (data : Bytes) (rest : List Bytes) (fault : DecodeError)
    (hd : decode data = .error fault)
    (h : 0 < options.maxErrors ∧ options.maxErrors ≤ failed + 1) :
    tally decode options index failed (data :: rest) =
      ⟨[], options.kept [(index, fault)], some (index, failed + 1)⟩ := by
  simp only [tally, hd, if_pos h]
  rfl

/-- The payload whose failure reaches the bound is the last one. -/
theorem tally_stopped (front rest : List Bytes) (data : Bytes) (fault : DecodeError)
    (hd : decode data = .error fault)
    (h : options.maxErrors = (failuresFrom 0 decode front).length + 1) :
    tally decode options 0 0 (front ++ data :: rest) =
      ⟨successes decode front,
        options.kept (failuresFrom 0 decode front ++ [(front.length, fault)]),
        some (front.length, options.maxErrors)⟩ := by
  have happend := tally_append decode options 0 0 front (data :: rest) (.inr (by omega))
  simp only [Nat.zero_add] at happend
  rw [happend, tally_last decode options _ _ data rest fault hd (by omega),
    BatchOptions.kept_append, h, List.append_nil]

/-- Where enough payloads fail, the list splits at the one whose failure reaches the bound. -/
theorem split_at_bound (ps : List Bytes) (h : ¬options.Allows (failuresFrom 0 decode ps).length) :
    ∃ front data rest fault, ps = front ++ data :: rest ∧ decode data = .error fault ∧
      options.maxErrors = (failuresFrom 0 decode front).length + 1 := by
  have hbound : 0 < options.maxErrors ∧
      options.maxErrors ≤ (failuresFrom 0 decode ps).length := by
    rw [BatchOptions.Allows] at h
    omega
  obtain ⟨front, data, rest, fault, hps, hfault, hfront⟩ :=
    placedFrom_split 0 (fun data => fault? (decode data)) ps (options.maxErrors - 1) (by
      rw [failuresFrom] at hbound
      omega)
  refine ⟨front, data, rest, fault, hps, ?_, ?_⟩
  · cases hd : decode data with
    | ok e =>
      rw [hd] at hfault
      cases hfault
    | error f =>
      rw [hd] at hfault
      exact congrArg Except.error (Option.some.inj hfault)
  · rw [failuresFrom, hfront]
    omega

/-- With enough failures, the run is one over the payloads up to the one that reaches the bound. -/
theorem tally_bounded (ps : List Bytes) (h : ¬options.Allows (failuresFrom 0 decode ps).length) :
    let failures := (failuresFrom 0 decode ps).take options.maxErrors
    ∃ k fault, (failuresFrom 0 decode ps)[options.maxErrors - 1]? = some (k, fault) ∧
      failuresFrom 0 decode (ps.take (k + 1)) = failures ∧
      tally decode options 0 0 ps =
        ⟨successes decode (ps.take (k + 1)), options.kept failures, some (k, options.maxErrors)⟩ := by
  obtain ⟨front, data, rest, fault, rfl, hd, hbound⟩ := split_at_bound decode options ps h
  have hupto : (front ++ data :: rest).take (front.length + 1) = front ++ [data] := by
    rw [List.take_length_add_append]
    rfl
  have hfirst : (failuresFrom 0 decode (front ++ data :: rest)).take options.maxErrors =
      failuresFrom 0 decode front ++ [(front.length, fault)] := by
    rw [failuresFrom_split decode front rest data fault hd, hbound, List.take_length_add_append]
    rfl
  refine ⟨front.length, fault, ?_, ?_, ?_⟩
  · rw [failuresFrom_split decode front rest data fault hd, hbound]
    simp
  · rw [hupto, hfirst, failuresFrom_split decode front [] data fault hd]
    rfl
  · rw [tally_stopped decode options front rest data fault hd hbound, hupto, hfirst,
      successes_append, successes_error decode data [] fault hd]
    simp [successes]

theorem tally_events_kept (collect : Bool) (ps : List Bytes) :
    (tally decode ⟨collect, options.maxErrors⟩ 0 0 ps).events =
      (tally decode options 0 0 ps).events := by
  by_cases h : options.Allows (failuresFrom 0 decode ps).length
  · rw [tally_complete decode options ps h,
      tally_complete decode ⟨collect, options.maxErrors⟩ ps h]
  · obtain ⟨front, data, rest, fault, rfl, hd, hbound⟩ := split_at_bound decode options ps h
    rw [tally_stopped decode options front rest data fault hd hbound,
      tally_stopped decode ⟨collect, options.maxErrors⟩ front rest data fault hd hbound]

/-! ## The accounts -/

/-- A sequential batch accounts for its payloads in order, up to the one whose failure reaches the
bound, or for all of them: its events are their successes, and its errors, if they are kept, are
their failures, each with its place. -/
theorem sequential_accounts (r : Registry) (program : Option AccountKey) (payloads : List Bytes)
    (options : BatchOptions) :
    let c := r.candidates program
    let result := (c.sequentialBatch payloads options).1
    let failures := failuresFrom 0 c.decodeItem payloads
    result.total = payloads.length ∧
    ((failures.map (·.1)).Pairwise (· < ·) ∧
      ∀ i fault, (i, fault) ∈ failures ↔
        ∃ data, payloads[i]? = some data ∧ c.decodeItem data = .error fault) ∧
    (0 < options.maxErrors → options.maxErrors ≤ failures.length →
      ∃ k fault, failures[options.maxErrors - 1]? = some (k, fault) ∧
        failuresFrom 0 c.decodeItem (payloads.take (k + 1)) = failures.take options.maxErrors ∧
        result.events = successes c.decodeItem (payloads.take (k + 1)) ∧
        result.errors = options.kept (failures.take options.maxErrors)) ∧
    (options.maxErrors = 0 ∨ failures.length < options.maxErrors →
      result.events = successes c.decodeItem payloads ∧
      result.errors = options.kept failures ∧
      (options.collectErrors = true →
        result.events.length + result.errors.length = payloads.length)) ∧
    ∀ collect, (c.sequentialBatch payloads ⟨collect, options.maxErrors⟩).1.events =
      result.events := by
  intro c result failures
  have hevents : result.events = (tally c.decodeItem options 0 0 payloads).events := rfl
  have herrors : result.errors = (tally c.decodeItem options 0 0 payloads).errors := rfl
  refine ⟨rfl, ⟨placedFrom_increasing 0 _ payloads, mem_failures c.decodeItem payloads⟩, ?_, ?_, ?_⟩
  · intro hpos hfull
    have hbounded : ¬options.Allows failures.length := by
      rw [BatchOptions.Allows]
      omega
    obtain ⟨k, fault, hk, hupto, htally⟩ :=
      tally_bounded c.decodeItem options payloads hbounded
    rw [hevents, herrors, htally]
    exact ⟨k, fault, hk, hupto, rfl, rfl⟩
  · intro hless
    rw [hevents, herrors, tally_complete c.decodeItem options payloads hless]
    refine ⟨rfl, rfl, fun hcollect => ?_⟩
    rw [BatchOptions.kept, if_pos hcollect]
    exact successes_failures c.decodeItem 0 payloads
  · exact fun collect => tally_events_kept c.decodeItem options collect payloads

/-- Of five payloads two are too short: a bound of two ends the batch at the second of them, a bound
of three is not reached. -/
theorem sequential_accounts_two_short :
    let swap : Handle := ⟨.shared 0, .tagged ⟨"Swap", .zero, ⟨List.replicate 8 1, rfl⟩,
      fun _ => .ok .null⟩⟩
    let r := RegistryCommand.run .empty [.register "swap" swap]
    let c := r.candidates none
    let good : Bytes := List.replicate 8 1
    let payloads := [good, [1], good, [2, 2], good]
    let event : Event := ⟨"Swap", .null, good, .zero, some ⟨good, rfl⟩⟩
    let failures := failuresFrom 0 c.decodeItem payloads
    let bounded := (c.sequentialBatch payloads ⟨true, 2⟩).1
    let complete := (c.sequentialBatch payloads ⟨true, 3⟩).1
    failures = [(1, .tooShort 8 1), (3, .tooShort 8 2)] ∧ bounded.total = 5 ∧
      (0 < 2 ∧ 2 ≤ failures.length ∧ ∃ k fault, failures[1]? = some (k, fault) ∧ k = 3 ∧
        bounded.events = successes c.decodeItem (payloads.take (k + 1)) ∧
        bounded.events = [event, event] ∧ bounded.errors = failures.take 2) ∧
      failures.length < 3 ∧ complete.events = [event, event, event] ∧
      complete.errors = failures ∧ complete.events.length + complete.errors.length = 5 := by
  intro swap r c good payloads event failures bounded complete
  have hfailures : failures = [(1, .tooShort 8 1), (3, .tooShort 8 2)] := by decide +kernel
  have htwo : 2 ≤ failures.length := by rw [hfailures]; decide
  have hthree : failures.length < 3 := by rw [hfailures]; decide
  obtain ⟨htotal, -, hbounded, -, -⟩ := sequential_accounts r none payloads ⟨true, 2⟩
  obtain ⟨-, -, -, hcomplete, -⟩ := sequential_accounts r none payloads ⟨true, 3⟩
  obtain ⟨k, fault, hk, -, hevents, herrors⟩ := hbounded (by decide) htwo
  obtain ⟨hall, hkept, hcount⟩ := hcomplete (.inr hthree)
  have hthird : k = 3 := by
    have hsecond : failures[1]? = some (3, .tooShort 8 2) := by rw [hfailures]; rfl
    exact congrArg Prod.fst (Option.some.inj (hk.symm.trans hsecond))
  refine ⟨hfailures, htotal, ⟨by decide, htwo, k, fault, hk, hthird, hevents, ?_, herrors⟩, hthree,
    ?_, hkept, hcount rfl⟩
  · rw [hevents, hthird]
    decide +kernel
  · rw [hall]
    decide +kernel

end TaggedPayload
