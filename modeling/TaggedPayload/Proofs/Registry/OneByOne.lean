import TaggedPayload.Proofs.Registry.AcceptedLog
import TaggedPayload.Proofs.Registry.SoleDecoder

/-!
# Registering at once and one by one

A call that registers several decoders looks for a taken key first and inserts afterwards. Calls that
register them one by one meet a taken key in the registry that they have changed so far. Both stop at
the same entry: the growing registry holds the keys of the entries before it. Only the call that
registers all of them leaves no trace of these entries.
-/

set_option autoImplicit false

namespace TaggedPayload

def oneByOne (es : List (String × Handle)) : List RegistryCommand :=
  es.map fun e => .register e.1 e.2

namespace RegistryCommand

def answers (r : Registry) : List RegistryCommand → List (Except RegistryError Nat)
  | [] => []
  | c :: cs => (c.perform r).2.result :: answers (c.perform r).1 cs

theorem answers_append (r : Registry) (cs ds : List RegistryCommand) :
    answers r (cs ++ ds) = answers r cs ++ answers (run r cs) ds := by
  induction cs generalizing r with
  | nil => rfl
  | cons c cs ih =>
    rw [List.cons_append, answers, ih]
    rfl

/-! ## One call -/

theorem register_taken (r : Registry) (key : String) (h : Handle) (hkey : key ∈ r.keys) :
    (register key h).perform r = (r, ⟨.error (.alreadyRegistered key), []⟩) := by
  have happly : (register key h).apply r = .error (.alreadyRegistered key) := by
    simp [apply, Registry.register_eq, Registry.contains, hkey]
  rw [perform_eq, happly]

theorem register_free (r : Registry) (key : String) (h : Handle) (hkey : key ∉ r.keys) :
    (register key h).perform r =
      (r.insert key h.scope h, ⟨.ok 1, (register key h).report⟩) := by
  have happly : (register key h).apply r = .ok (r.insert key h.scope h) := by
    simp [apply, Registry.register_eq, Registry.contains, hkey]
  have hsize : (r.insert key h.scope h).size - r.size = 1 := by
    simp [Registry.size, Registry.insert]
  rw [perform_eq, happly, ← hsize]

theorem registerAll_taken (r : Registry) (es : List (String × Handle)) (key : String)
    (h : Registry.conflict? r.keys es = some key) :
    (registerAll es).perform r = (r, ⟨.error (.alreadyRegistered key), []⟩) := by
  have happly : (registerAll es).apply r = .error (.alreadyRegistered key) := by
    simp [apply, Registry.registerAll_eq, h]
  rw [perform_eq, happly]

theorem registerAll_free (r : Registry) (es : List (String × Handle))
    (h : Registry.conflict? r.keys es = none) :
    (registerAll es).perform r = (r.insertAll es, ⟨.ok es.length, []⟩) := by
  have happly : (registerAll es).apply r = .ok (r.insertAll es) := by
    simp [apply, Registry.registerAll_eq, h]
  have hsize : (r.insertAll es).size - r.size = es.length := by
    rw [Registry.insertAll_size, Nat.add_sub_cancel_left]
  rw [perform_eq, happly, ← hsize]
  rfl

/-! ## The calls one by one -/

theorem insert_keys (r : Registry) (key : String) (program : Option AccountKey) (h : Handle) :
    (r.insert key program h).keys = r.keys ++ [key] := by
  simp [Registry.keys, Registry.insert]

theorem oneByOne_free (r : Registry) (es : List (String × Handle))
    (h : Registry.conflict? r.keys es = none) :
    run r (oneByOne es) = r.insertAll es ∧
      answers r (oneByOne es) = List.replicate es.length (.ok 1) := by
  induction es generalizing r with
  | nil => exact ⟨rfl, rfl⟩
  | cons e es ih =>
    obtain ⟨key, k⟩ := e
    by_cases hkey : key ∈ r.keys
    · simp [Registry.conflict?, hkey] at h
    · simp only [Registry.conflict?, List.contains_iff_mem, hkey, if_false] at h
      rw [← insert_keys r key k.scope k] at h
      obtain ⟨hrun, hanswers⟩ := ih _ h
      have hfirst := register_free r key k hkey
      constructor
      · rw [oneByOne, List.map_cons, run, hfirst]
        exact hrun
      · rw [oneByOne, List.map_cons, answers, hfirst, List.length_cons, List.replicate_succ]
        exact congrArg _ hanswers

/-- The entries before the first taken key are accepted, and its own call is refused. -/
theorem oneByOne_taken (r : Registry) (es : List (String × Handle)) (key : String)
    (h : Registry.conflict? r.keys es = some key) :
    ∃ before k later, es = before ++ (key, k) :: later ∧
      answers r (oneByOne before) = List.replicate before.length (.ok 1) ∧
      ((register key k).perform (run r (oneByOne before))).2.result =
        .error (.alreadyRegistered key) := by
  obtain ⟨before, k, later, hes, hbefore, hkey⟩ := Registry.conflict?_split r.keys es key h
  obtain ⟨hrun, hanswers⟩ := oneByOne_free r before hbefore
  refine ⟨before, k, later, hes, hanswers, ?_⟩
  rw [hrun, register_taken _ key k (by rwa [Registry.insertAll_keys])]

end RegistryCommand

/-- Registering decoders at once succeeds just if registering them one by one would, each call after
the other. Then both ways lead to the same registry, and all of the decoders are counted. Otherwise
the key that is reported is the one at which the calls one by one would first fail, and the registry
is as it was. -/
theorem all_as_one_by_one (r : Registry) (es : List (String × Handle)) :
    let all := (RegistryCommand.registerAll es).perform r
    (all.2.result.isOk = true ↔
        ∀ a ∈ RegistryCommand.answers r (oneByOne es), a.isOk = true) ∧
      (all.2.result.isOk = true →
        all.2.result = .ok es.length ∧ all.1 = RegistryCommand.run r (oneByOne es)) ∧
      ∀ e, all.2.result = .error e →
        all.1 = r ∧ ∃ before key h later, es = before ++ (key, h) :: later ∧
          e = .alreadyRegistered key ∧
          (∀ a ∈ RegistryCommand.answers r (oneByOne before), a.isOk = true) ∧
          ((RegistryCommand.register key h).perform
            (RegistryCommand.run r (oneByOne before))).2.result = .error e := by
  intro all
  cases hc : Registry.conflict? r.keys es with
  | none =>
    have hall : all = _ := RegistryCommand.registerAll_free r es hc
    obtain ⟨hrun, hanswers⟩ := RegistryCommand.oneByOne_free r es hc
    rw [hall, hrun, hanswers]
    refine ⟨?_, fun _ => ⟨rfl, rfl⟩, fun e he => nomatch he⟩
    refine iff_of_true rfl fun a ha => ?_
    rw [List.eq_of_mem_replicate ha]
    rfl
  | some key =>
    have hall : all = _ := RegistryCommand.registerAll_taken r es key hc
    obtain ⟨before, k, later, hes, hanswers, hrefused⟩ := RegistryCommand.oneByOne_taken r es key hc
    have hfailed : all.2.result = .error (.alreadyRegistered key) := by rw [hall]
    have hmem : .error (.alreadyRegistered key) ∈ RegistryCommand.answers r (oneByOne es) := by
      rw [hes, oneByOne, List.map_append, List.map_cons, RegistryCommand.answers_append,
        RegistryCommand.answers]
      exact List.mem_append_right _ (hrefused ▸ List.mem_cons_self)
    rw [hfailed]
    refine ⟨?_, ?_, ?_⟩
    · exact iff_of_false Bool.false_ne_true fun hok => Bool.false_ne_true (hok _ hmem)
    · intro hok
      cases hok
    · intro e he
      cases he
      refine ⟨by rw [hall], before, key, k, later, hes, rfl, ?_, hrefused⟩
      rw [hanswers]
      intro a ha
      rw [List.eq_of_mem_replicate ha]
      rfl

/-- Two entries that go into one program's bucket, and four of which the third repeats the first
and the fourth has a key that is registered. -/
theorem all_as_one_by_one_repeated :
    let p : AccountKey := ⟨List.replicate 32 7, rfl⟩
    let swap : Handle := ⟨.shared 0, .gated ⟨"Swap", p, 0, fun _ => .ok .null⟩⟩
    let raw : Handle := ⟨.shared 1, .gated ⟨"Raw", .zero, 8, fun _ => .ok .null⟩⟩
    let r := RegistryCommand.run .empty [.register "swap" swap]
    let free := [("mint", swap), ("raw", raw), ("again", swap)]
    let taken := [("mint", raw), ("burn", swap), ("mint", swap), ("swap", raw)]
    let allFree := (RegistryCommand.registerAll free).perform r
    let allTaken := (RegistryCommand.registerAll taken).perform r
    (allFree.2.result = .ok 3 ∧ allFree.1 = RegistryCommand.run r (oneByOne free) ∧
        (allFree.1.bucket p).map (·.id) = [.shared 0, .shared 0, .shared 0]) ∧
      allTaken.2.result = .error (.alreadyRegistered "mint") ∧ allTaken.1 = r ∧
      RegistryCommand.answers r (oneByOne taken) =
        [.ok 1, .ok 1, .error (.alreadyRegistered "mint"),
          .error (.alreadyRegistered "swap")] := by
  intro p swap raw r free taken allFree allTaken
  obtain ⟨-, hfree, -⟩ := all_as_one_by_one r free
  obtain ⟨-, -, htaken⟩ := all_as_one_by_one r taken
  obtain ⟨hcount, hrun⟩ := hfree rfl
  have hkey : allTaken.2.result = .error (.alreadyRegistered "mint") := rfl
  exact ⟨⟨hcount, hrun, by decide +kernel⟩, hkey, (htaken _ hkey).1, rfl⟩

end TaggedPayload
