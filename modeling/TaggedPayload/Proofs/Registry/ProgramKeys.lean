import TaggedPayload.Proofs.Registry.OneByOne
import TaggedPayload.Proofs.Text.KeyTexts

/-!
# Keys of programs

A decoder that is registered for a program has the program's text as its key. Different programs
have different texts, so calls for different programs are never in each other's way.
-/

set_option autoImplicit false

namespace TaggedPayload

namespace Registry

/-- Registers decoders for programs in order, up to the first call that fails. -/
def registerPrograms (r : Registry) (calls : List (AccountKey × Handle)) :
    Except RegistryError Registry :=
  calls.foldlM (fun r c => r.registerForProgram c.1 c.2) r

theorem registerForProgram_taken (r : Registry) (p : AccountKey) (h : Handle)
    (hkey : p.text ∈ r.keys) :
    r.registerForProgram p h = .error (.alreadyRegistered p.text) := by
  simp [registerForProgram_eq, contains, hkey]

theorem registerForProgram_free (r : Registry) (p : AccountKey) (h : Handle)
    (hkey : p.text ∉ r.keys) :
    r.registerForProgram p h = .ok (r.insert p.text (some p) h) := by
  simp [registerForProgram_eq, contains, hkey]

theorem registerForProgram_error_iff (r : Registry) (p : AccountKey) (h : Handle)
    (e : RegistryError) :
    r.registerForProgram p h = .error e ↔ p.text ∈ r.keys ∧ e = .alreadyRegistered p.text := by
  by_cases hkey : p.text ∈ r.keys
  · simp [registerForProgram_taken r p h hkey, hkey, eq_comm]
  · simp [registerForProgram_free r p h hkey, hkey]

/-- The text of a program is taken by calls for that program only. -/
theorem texts_free_iff (keys : List String) (p : AccountKey) (calls : List (AccountKey × Handle)) :
    (∀ c ∈ calls, c.1.text ∉ keys ++ [p.text]) ↔
      p ∉ calls.map (·.1) ∧ ∀ c ∈ calls, c.1.text ∉ keys := by
  constructor
  · intro h
    constructor
    · intro hp
      obtain ⟨c, hc, rfl⟩ := List.mem_map.mp hp
      exact h c hc (List.mem_append_right _ (List.mem_singleton_self _))
    · exact fun c hc hkey => h c hc (List.mem_append_left _ hkey)
  · rintro ⟨hp, hkeys⟩ c hc htaken
    rcases List.mem_append.mp htaken with hkey | htext
    · exact hkeys c hc hkey
    · have hsame := AccountKey.text_injective c.1 p (List.mem_singleton.mp htext)
      rw [← hsame] at hp
      exact hp (List.mem_map_of_mem hc)

theorem registerPrograms_ok_iff (r : Registry) (calls : List (AccountKey × Handle)) :
    (∃ r', r.registerPrograms calls = .ok r' ∧ r'.keys = r.keys ++ calls.map (·.1.text)) ↔
      (calls.map (·.1)).Nodup ∧ ∀ c ∈ calls, c.1.text ∉ r.keys := by
  induction calls generalizing r with
  | nil => simp [registerPrograms, pure, Except.pure]
  | cons c calls ih =>
    by_cases hkey : c.1.text ∈ r.keys
    · have hfails : r.registerPrograms (c :: calls) = .error (.alreadyRegistered c.1.text) := by
        rw [registerPrograms, List.foldlM_cons, registerForProgram_taken r c.1 c.2 hkey]
        rfl
      simp [hfails, hkey]
    · have hgoes : r.registerPrograms (c :: calls) =
          (r.insert c.1.text (some c.1) c.2).registerPrograms calls := by
        rw [registerPrograms, List.foldlM_cons, registerForProgram_free r c.1 c.2 hkey]
        rfl
      have hrest := ih (r.insert c.1.text (some c.1) c.2)
      rw [RegistryCommand.insert_keys, texts_free_iff, List.append_assoc] at hrest
      rw [hgoes, List.map_cons, List.map_cons, List.nodup_cons, List.forall_mem_cons]
      refine hrest.trans ?_
      tauto

end Registry

/-- A key is read back from its text, and a text is read only as the key whose text it is; any other
text is refused as a whole. A key's text is its base 58 notation. Registering for a program fails
just if the text of the program is a key already, so calls for programs succeed together just if
the programs are all different and none of their texts was a key before. -/
theorem key_texts_bijective (r : Registry) :
    (∀ k : AccountKey, AccountKey.ofText k.text = .ok k) ∧
    (∀ s k, AccountKey.ofText s = .ok k ↔ k.text = s) ∧
    (∀ s f, AccountKey.ofText s = .error f ↔ f = ⟨s⟩ ∧ ∀ k : AccountKey, k.text ≠ s) ∧
    (∀ s k, AccountKey.text k = s ↔ Text.Base58.Denotes s.toList k.bytes) ∧
    (∀ p h e, r.registerForProgram p h = .error e ↔
      p.text ∈ r.keys ∧ e = .alreadyRegistered p.text) ∧
    ∀ calls, (∃ r', r.registerPrograms calls = .ok r' ∧
        r'.keys = r.keys ++ calls.map (·.1.text)) ↔
      (calls.map (·.1)).Nodup ∧ ∀ c ∈ calls, c.1.text ∉ r.keys := by
  refine ⟨AccountKey.ofText_text, AccountKey.ofText_ok_iff, AccountKey.ofText_error_iff,
    fun s k => ?_, r.registerForProgram_error_iff, r.registerPrograms_ok_iff⟩
  rw [← Text.Base58.encode_eq_iff, AccountKey.text, ← String.toList_inj, String.toList_ofList]

/-- Zeros in front of a number of two digits. Without that number, 31 ones are the text of no key,
and 32 are that of the zero key; the two keys do not get in each other's way, but a second call for
the same program fails. -/
theorem key_texts_bijective_zeros :
    let p : AccountKey := ⟨List.replicate 31 0 ++ [58], rfl⟩
    let h : Handle := ⟨.shared 0, .gated ⟨"Raw", .zero, 8, fun _ => .ok .null⟩⟩
    let calls := [(p, h), (AccountKey.zero, h)]
    p.text = "111111111111111111111111111111121" ∧ AccountKey.ofText p.text = .ok p ∧
      AccountKey.zero.text = "11111111111111111111111111111111" ∧
      (∀ k : AccountKey, k.text ≠ "1111111111111111111111111111111") ∧
      (∃ r', Registry.empty.registerPrograms calls = .ok r' ∧
        r'.keys = [p.text, AccountKey.zero.text]) ∧
      ¬ ∃ r', Registry.empty.registerPrograms (calls ++ [(p, h)]) = .ok r' ∧
        r'.keys = [p.text, AccountKey.zero.text, p.text] := by
  intro p h calls
  obtain ⟨hback, -, hrefused, -, -, hcalls⟩ := key_texts_bijective .empty
  have hshort : AccountKey.ofText "1111111111111111111111111111111" =
      .error ⟨"1111111111111111111111111111111"⟩ := by decide +kernel
  refine ⟨by decide +kernel, hback p, by decide +kernel, ((hrefused _ _).mp hshort).2, ?_, ?_⟩
  · exact (hcalls calls).mpr ⟨by decide, by simp [Registry.keys, Registry.empty]⟩
  · intro htwice
    have hdistinct := ((hcalls (calls ++ [(p, h)])).mp htwice).1
    exact absurd hdistinct (by decide)

end TaggedPayload
