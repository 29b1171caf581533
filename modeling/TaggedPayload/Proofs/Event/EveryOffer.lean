import TaggedPayload.Event.Dispatch

/-!
# Every event to every processor

Dispatching makes the calls that it owes, each once: the events in order, and for each of them the
processors in order. A call sees the state that the call before it left, so what a processor returns
may depend on all calls so far; it never changes which calls follow. Processors that write down
their calls show the order, and the calls with their verdicts give the count and the reports.
-/

set_option autoImplicit false

namespace TaggedPayload

namespace Dispatch

variable {σ : Type}

/-- An event for a processor, with the event's place among the events. -/
structure Offer (σ : Type) where
  place : Nat
  event : Event
  processor : Processor σ

structure Call (σ : Type) where
  offer : Offer σ
  verdict : Except PluginError Bool

def Call.isHandled (c : Call σ) : Bool :=
  match c.verdict with
  | .ok b => b
  | .error _ => false

def Call.report? (c : Call σ) : Option LogRecord :=
  match c.verdict with
  | .ok _ => none
  | .error fault => some (failureRecord c.offer.processor c.offer.event fault)

def Call.failed (c : Call σ) : Bool :=
  match c.verdict with
  | .ok _ => false
  | .error _ => true

@[simp] theorem Call.isHandled_ok (o : Offer σ) (b : Bool) :
    (Call.mk o (.ok b)).isHandled = b := rfl

@[simp] theorem Call.isHandled_error (o : Offer σ) (fault : PluginError) :
    (Call.mk o (.error fault)).isHandled = false := rfl

@[simp] theorem Call.report?_ok (o : Offer σ) (b : Bool) : (Call.mk o (.ok b)).report? = none := rfl

@[simp] theorem Call.report?_error (o : Offer σ) (fault : PluginError) :
    (Call.mk o (.error fault)).report? = some (failureRecord o.processor o.event fault) := rfl

def offersOf (ps : List (Processor σ)) (place : Nat) (e : Event) : List (Offer σ) :=
  ps.map fun p => ⟨place, e, p⟩

theorem offersOf_cons (p : Processor σ) (ps : List (Processor σ)) (place : Nat) (e : Event) :
    offersOf (p :: ps) place e = ⟨place, e, p⟩ :: offersOf ps place e := rfl

def offersFrom (ps : List (Processor σ)) (place : Nat) (es : List Event) : List (Offer σ) :=
  (es.zipIdx place).flatMap fun e => offersOf ps e.2 e.1

def calls : List (Offer σ) → σ → List (Call σ)
  | [], _ => []
  | o :: os, s =>
    let r := o.processor.offer o.event s
    ⟨o, r.1⟩ :: calls os r.2

def stateAfter : List (Offer σ) → σ → σ
  | [], s => s
  | o :: os, s => stateAfter os (o.processor.offer o.event s).2

/-- The processor as one that writes down its calls. -/
def noting (p : Processor σ) : Processor (σ × List (Event × Processor σ)) where
  name := p.name
  offer e s :=
    let r := p.offer e s.1
    (r.1, r.2, s.2 ++ [(e, p)])

/-! ## Calls of one event -/

theorem calls_offers (os : List (Offer σ)) (s : σ) : (calls os s).map (·.offer) = os := by
  induction os generalizing s with
  | nil => rfl
  | cons o os ih => rw [calls, List.map_cons, ih]

theorem calls_append (os later : List (Offer σ)) (s : σ) :
    calls (os ++ later) s = calls os s ++ calls later (stateAfter os s) := by
  induction os generalizing s with
  | nil => rfl
  | cons o os ih => rw [List.cons_append, calls, calls, stateAfter, ih, List.cons_append]

theorem stateAfter_append (os later : List (Offer σ)) (s : σ) :
    stateAfter (os ++ later) s = stateAfter later (stateAfter os s) := by
  induction os generalizing s with
  | nil => rfl
  | cons o os ih => rw [List.cons_append, stateAfter, stateAfter, ih]

theorem offerAll_calls (ps : List (Processor σ)) (place : Nat) (e : Event) (s : σ) :
    let os := offersOf ps place e
    offerAll e ps s =
      ((calls os s).any Call.isHandled, (calls os s).filterMap Call.report?, stateAfter os s) := by
  induction ps generalizing s with
  | nil => rfl
  | cons p ps ih =>
    rcases hp : p.offer e s with ⟨_ | _, s'⟩ <;>
      simp [offerAll, offersOf_cons, calls, stateAfter, hp, ih, List.filterMap_cons]

/-! ## A whole run -/

theorem offersFrom_cons (ps : List (Processor σ)) (place : Nat) (e : Event) (es : List Event) :
    offersFrom ps place (e :: es) = offersOf ps place e ++ offersFrom ps (place + 1) es := rfl

theorem place_le (ps : List (Processor σ)) (place : Nat) (es : List Event) :
    ∀ o ∈ offersFrom ps place es, place ≤ o.place := by
  intro o ho
  obtain ⟨e, he, hp⟩ := List.mem_flatMap.mp ho
  obtain ⟨p, -, rfl⟩ := List.mem_map.mp hp
  exact List.le_snd_of_mem_zipIdx he

/-- Some call of the event at a place handled it. -/
def handledAt (cs : List (Call σ)) (place : Nat) : Bool :=
  cs.any fun c => c.offer.place == place && c.isHandled

theorem handledAt_append (cs later : List (Call σ)) (place : Nat) :
    handledAt (cs ++ later) place = (handledAt cs place || handledAt later place) :=
  List.any_append

theorem handledAt_offersOf (ps : List (Processor σ)) (place : Nat) (e : Event) (s : σ) :
    handledAt (calls (offersOf ps place e) s) place =
      (calls (offersOf ps place e) s).any Call.isHandled := by
  induction ps generalizing s with
  | nil => rfl
  | cons p ps ih =>
    simp only [offersOf_cons, calls, handledAt, List.any_cons, beq_self_eq_true, Bool.true_and]
    exact congrArg _ (ih _)

theorem handledAt_elsewhere (os : List (Offer σ)) (place : Nat) (s : σ)
    (h : ∀ o ∈ os, o.place ≠ place) : handledAt (calls os s) place = false := by
  rw [handledAt, List.any_eq_false]
  intro c hc
  have ho : c.offer ∈ os := by
    rw [← calls_offers os s]
    exact List.mem_map_of_mem hc
  simp [h c.offer ho]

/-- The first event counts if one of its own calls handled it, the others by the calls after it. -/
theorem countP_handledAt (ps : List (Processor σ)) (place : Nat) (e : Event) (es : List Event)
    (s : σ) :
    (List.range' place (es.length + 1)).countP
        (handledAt (calls (offersFrom ps place (e :: es)) s)) =
      (if (calls (offersOf ps place e) s).any Call.isHandled then 1 else 0) +
        (List.range' (place + 1) es.length).countP
          (handledAt (calls (offersFrom ps (place + 1) es)
            (stateAfter (offersOf ps place e) s))) := by
  rw [offersFrom_cons, calls_append, List.range'_succ, List.countP_cons, Nat.add_comm]
  congr 1
  · have hlater : ∀ o ∈ offersFrom ps (place + 1) es, o.place ≠ place := by
      intro o ho
      have := place_le ps (place + 1) es o ho
      omega
    rw [handledAt_append, handledAt_offersOf, handledAt_elsewhere _ place _ hlater, Bool.or_false]
  · apply List.countP_congr
    intro n hn
    have hown : ∀ o ∈ offersOf ps place e, o.place ≠ n := by
      intro o ho
      obtain ⟨p, -, rfl⟩ := List.mem_map.mp ho
      exact Nat.ne_of_lt (List.mem_range'_1.mp hn).1
    rw [handledAt_append, handledAt_elsewhere _ n _ hown, Bool.false_or]

theorem run_calls (ps : List (Processor σ)) (place : Nat) (es : List Event) (s : σ) :
    let os := offersFrom ps place es
    run ps es s =
      ⟨(List.range' place es.length).countP (handledAt (calls os s)),
        (calls os s).filterMap Call.report?, stateAfter os s⟩ := by
  induction es generalizing place s with
  | nil => rfl
  | cons e es ih =>
    dsimp only
    rw [run, offerAll_calls ps place, List.length_cons, countP_handledAt]
    simp only [ih (place + 1), offersFrom_cons, calls_append, stateAfter_append,
      List.filterMap_append]

/-! ## Processors that write down their calls -/

def Offer.noted (o : Offer σ) : Offer (σ × List (Event × Processor σ)) :=
  ⟨o.place, o.event, noting o.processor⟩

def Offer.pair (o : Offer σ) : Event × Processor σ :=
  (o.event, o.processor)

theorem offersFrom_noted (ps : List (Processor σ)) (place : Nat) (es : List Event) :
    offersFrom (ps.map noting) place es = (offersFrom ps place es).map Offer.noted := by
  simp only [offersFrom, offersOf, List.map_flatMap, List.map_map]
  rfl

theorem offersFrom_pair (ps : List (Processor σ)) (place : Nat) (es : List Event) :
    (offersFrom ps place es).map Offer.pair = es.flatMap fun e => ps.map (e, ·) := by
  induction es generalizing place with
  | nil => rfl
  | cons e es ih =>
    rw [offersFrom_cons, List.map_append, ih, List.flatMap_cons, offersOf, List.map_map]
    rfl

def Call.noted (c : Call σ) : Call (σ × List (Event × Processor σ)) :=
  ⟨c.offer.noted, c.verdict⟩

/-- Writing down changes neither a call's verdict nor the state of the processors. -/
theorem calls_noted (os : List (Offer σ)) (s : σ) (notes : List (Event × Processor σ)) :
    calls (os.map Offer.noted) (s, notes) = (calls os s).map Call.noted ∧
      stateAfter (os.map Offer.noted) (s, notes) =
        (stateAfter os s, notes ++ os.map Offer.pair) := by
  induction os generalizing s notes with
  | nil => simp [calls, stateAfter]
  | cons o os ih =>
    obtain ⟨hcalls, hstate⟩ := ih (o.processor.offer o.event s).2 (notes ++ [o.pair])
    constructor
    · rw [List.map_cons, calls, calls, List.map_cons, ← hcalls]
      rfl
    · rw [List.map_cons, stateAfter, stateAfter, List.map_cons, List.append_cons, ← hstate]
      rfl

theorem report?_noted (c : Call σ) : c.noted.report? = c.report? := by
  obtain ⟨o, _ | _⟩ := c <;> rfl

theorem handledAt_noted (cs : List (Call σ)) (place : Nat) :
    handledAt (cs.map Call.noted) place = handledAt cs place := by
  rw [handledAt, List.any_map]
  rfl

theorem run_noted (ps : List (Processor σ)) (es : List Event) (s : σ) :
    run (ps.map noting) es (s, []) =
      ⟨(run ps es s).handled, (run ps es s).records,
        (run ps es s).state, es.flatMap fun e => ps.map (e, ·)⟩ := by
  obtain ⟨hcalls, hstate⟩ := calls_noted (offersFrom ps 0 es) s []
  rw [run_calls _ 0, run_calls ps 0, offersFrom_noted, hcalls, hstate, List.nil_append,
    offersFrom_pair, List.filterMap_map]
  simp only [Function.comp_def, report?_noted]
  congr 2
  funext place
  exact handledAt_noted _ place

theorem calls_pair (ps : List (Processor σ)) (es : List Event) (s : σ) :
    (calls (offersFrom ps 0 es) s).map (·.offer.pair) = es.flatMap fun e => ps.map (e, ·) := by
  have hpairs := congrArg (List.map Offer.pair) (calls_offers (offersFrom ps 0 es) s)
  rwa [List.map_map, offersFrom_pair] at hpairs

/-- What a report says, apart from the cause of the failure. -/
theorem reports_name (cs : List (Call σ)) :
    (cs.filterMap Call.report?).map (fun r => (r.level, r.fields)) =
      (cs.filter Call.failed).map fun c =>
        (.warn, [("processor", c.offer.processor.name), ("event", c.offer.event.name)]) := by
  induction cs with
  | nil => rfl
  | cons c cs ih =>
    obtain ⟨o, fault | b⟩ := c
    · rw [List.filterMap_cons_some (Call.report?_error o fault), List.map_cons, ih,
        List.filter_cons_of_pos rfl]
      rfl
    · rw [List.filterMap_cons_none (Call.report?_ok o b), ih,
        List.filter_cons_of_neg Bool.false_ne_true]

end Dispatch

/-- Whatever processors do and return, dispatching makes one call for each event and each processor,
event by event and in the order of the processors, and each call sees the state that the one before
it left; processors that write down their calls have written exactly that, and nothing else is
different with them. The count is that of the places whose event some call handled, and the reports
are those of the failed calls in their order, each with the names of its processor and its event. -/
theorem every_event_offered {σ : Type} (ps : List (Processor σ)) (es : List Event) (s : σ) :
    let offers := Dispatch.offersFrom ps 0 es
    let calls := Dispatch.calls offers s
    let result := Dispatch.run ps es s
    calls.map (·.offer) = offers ∧
      calls.map (·.offer.pair) = es.flatMap (fun e => ps.map (e, ·)) ∧
      Dispatch.run (ps.map Dispatch.noting) es (s, []) =
        ⟨result.handled, result.records, result.state, es.flatMap fun e => ps.map (e, ·)⟩ ∧
      result.state = Dispatch.stateAfter offers s ∧
      result.handled = (List.range es.length).countP (fun place =>
        calls.any fun c => c.offer.place == place && c.isHandled) ∧
      result.records = calls.filterMap Dispatch.Call.report? ∧
      result.records.map (fun r => (r.level, r.fields)) =
        (calls.filter Dispatch.Call.failed).map fun c =>
          (.warn, [("processor", c.offer.processor.name), ("event", c.offer.event.name)]) := by
  have hrun := Dispatch.run_calls ps 0 es s
  have hrecords := congrArg Dispatch.records hrun
  refine ⟨Dispatch.calls_offers _ s, Dispatch.calls_pair ps es s, Dispatch.run_noted ps es s,
    congrArg Dispatch.state hrun, ?_, hrecords, ?_⟩
  · rw [List.range_eq_range']
    exact congrArg Dispatch.handled hrun
  · rw [hrecords]
    exact Dispatch.reports_name _

end TaggedPayload
