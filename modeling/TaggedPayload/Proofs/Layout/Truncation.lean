import TaggedPayload.Proofs.Layout.FailedReads

/-!
# Payloads cut short and payloads made longer

Reading never looks past the bytes it takes. So a read that succeeds, and one that took bytes which
stand for nothing, do the same when more bytes follow; only a read that came to the end can change.
It follows that a payload which is cut inside what its fields take always fails by its end.
-/

set_option autoImplicit false

namespace TaggedPayload

def ReadError.isEnd : ReadError → Bool
  | unexpectedEnd .. => true
  | badBool .. => false
  | badText .. => false

namespace Cursor

def more (c : Cursor) (extra : Bytes) : Cursor :=
  ⟨c.position, c.rest ++ extra⟩

theorem start_more (payload extra : Bytes) :
    (start payload).more extra = start (payload ++ extra) := rfl

variable {c c' : Cursor} {e : ReadError}

theorem Took.more {bs : Bytes} (h : c.Took bs c') (extra : Bytes) :
    (c.more extra).Took bs (c'.more extra) := by
  obtain ⟨hrest, hposition⟩ := h
  exact ⟨by simp [Cursor.more, hrest], hposition⟩

theorem Short.isEnd {n : Nat} (h : c.Short n e) : e.isEnd = true := by
  rw [h.2]
  rfl

end Cursor

namespace FieldType

variable {c c' : Cursor}

theorem Fails.more {ty : FieldType} {e : ReadError} (h : ty.Fails c e c') (he : e.isEnd = false)
    (extra : Bytes) : ty.Fails (c.more extra) e (c'.more extra) := by
  obtain ⟨n, bs, -, hshort⟩ | ⟨b, h0, h1, rfl, htook, rfl⟩ | ⟨bs, hlt, hbad, rfl, htook, rfl⟩ :=
    h.cases
  · rw [hshort.isEnd] at he
    cases he
  · exact .inr ⟨b, h0, h1, htook.more extra, rfl⟩
  · exact .inr ⟨bs, hlt, hbad, htook.more extra, rfl⟩

/-- More bytes change only the reads that came to the end. -/
theorem read_more (ty : FieldType) {r : Except ReadError Value} (h : ty.read c = (r, c'))
    (hr : ∀ e, r = .error e → e.isEnd = false) (extra : Bytes) :
    ty.read (c.more extra) = (r, c'.more extra) := by
  cases r with
  | ok v =>
    obtain ⟨hfit, bs, hbs, htook⟩ := (ty.read_ok_iff v).mp h
    exact (ty.read_ok_iff v).mpr ⟨hfit, bs, hbs, htook.more extra⟩
  | error e =>
    exact (ty.read_error_iff e).mpr (((ty.read_error_iff e).mp h).more (hr e rfl) extra)

end FieldType

theorem readFields_more (fs : List Field) (c c' : Cursor)
    (r : Except ReadError (List (String × Value))) (h : readFields fs c = (r, c'))
    (hr : ∀ e, r = .error e → e.isEnd = false) (extra : Bytes) :
    readFields fs (c.more extra) = (r, c'.more extra) := by
  induction fs generalizing c r with
  | nil =>
    cases h
    rfl
  | cons f fs ih =>
    rw [readFields] at h
    rcases hv : f.2.read c with ⟨e | v, c₁⟩
    · rw [hv] at h
      cases h
      have hmore := f.2.read_more hv (by simpa using hr) extra
      rw [readFields, hmore]
    · rw [hv] at h
      rcases hl : readFields fs c₁ with ⟨later, c₂⟩
      simp only [hl] at h
      obtain ⟨rfl, rfl⟩ := Prod.mk.inj h
      have hlater : ∀ e, later = .error e → e.isEnd = false := by
        rintro e rfl
        exact hr e rfl
      have hmore := f.2.read_more hv (by simp) extra
      simp only [readFields, hmore, ih c₁ later hl hlater]

theorem readRecord_more (fs : List Field) (payload extra : Bytes) (e : ReadError)
    (h : readRecord fs payload = .error e) (he : e.isEnd = false) :
    readRecord fs (payload ++ extra) = .error e := by
  rcases hr : readFields fs (.start payload) with ⟨fault | entries, c'⟩
  · rw [readRecord, hr] at h
    obtain rfl : fault = e := Except.error.inj h
    have hmore := readFields_more fs _ c' _ hr (by simpa using he) extra
    rw [readRecord, ← Cursor.start_more, hmore]
    rfl
  · rw [readRecord, hr] at h
    cases h

theorem readRecord_agree (fs : List Field) (p q : Bytes) (v : Value)
    (h : readRecord fs p = .ok v)
    (hq : q.take (consumed fs p) = p.take (consumed fs p)) :
    readRecord fs q = .ok v ∧ consumed fs q = consumed fs p := by
  obtain ⟨vs, hfit, rfl, hle, hbytes⟩ := readRecord_ok fs p v h
  obtain ⟨bs, hbs, hread⟩ := consumed_encode fs vs hfit
  obtain rfl : bs = p.take (consumed fs p) := Option.some.inj (hbs.symm.trans hbytes)
  have hsplit : q = p.take (consumed fs p) ++ q.drop (consumed fs p) := by
    rw [← hq, List.take_append_drop]
  obtain ⟨hrecord, hlength⟩ := hread (q.drop (consumed fs p))
  rw [← hsplit] at hrecord hlength
  rw [List.length_take, Nat.min_eq_left hle] at hlength
  exact ⟨hrecord, hlength⟩

/-- A payload that is cut inside what its fields take ends too early for one of them. -/
theorem readRecord_cut (fs : List Field) (p : Bytes) (v : Value) (h : readRecord fs p = .ok v)
    (cut : Nat) (hcut : cut < consumed fs p) :
    ∃ offset needed available,
      readRecord fs (p.take cut) = .error (.unexpectedEnd offset needed available) := by
  rcases hr : readFields fs (.start (p.take cut)) with ⟨r, c'⟩
  have hrecord : readRecord fs (p.take cut) = r.map .record := by rw [readRecord, hr]
  -- Any other outcome would be that of the whole payload as well.
  have hwhole (hend : ∀ e, r = .error e → e.isEnd = false) :
      readFields fs (.start p) = (r, c'.more (p.drop cut)) := by
    have hmore := readFields_more fs _ c' r hr hend (p.drop cut)
    rwa [Cursor.start_more, List.take_append_drop] at hmore
  cases r with
  | ok entries =>
    obtain ⟨vs, -, -, bs, -, hrest, hposition⟩ := readFields_ok fs _ _ _ hr
    have hconsumed : consumed fs p = bs.length := by
      rw [consumed, hwhole (by simp)]
      exact hposition.trans (Nat.zero_add _)
    have hlength := congrArg List.length hrest
    simp only [Cursor.start, List.length_take, List.length_append] at hlength
    omega
  | error e =>
    cases e with
    | unexpectedEnd offset needed available => exact ⟨offset, needed, available, hrecord⟩
    | badBool offset byte =>
      rw [readRecord, hwhole (by simp [ReadError.isEnd])] at h
      cases h
    | badText offset =>
      rw [readRecord, hwhole (by simp [ReadError.isEnd])] at h
      cases h

/-- What cutting a payload short and making it longer do. A record stays as long as the bytes it was
read from do, and any shorter payload ends too early. A byte that is no truth value and bytes that
are no text stay, with the identical error, whatever follows. So an early end is the only failure
that more data repairs. -/
theorem only_ends_are_repaired (fs : List Field) (p : Bytes) :
    (∀ v, readRecord fs p = .ok v →
      (∀ q, q.take (consumed fs p) = p.take (consumed fs p) →
        readRecord fs q = .ok v ∧ consumed fs q = consumed fs p) ∧
      ∀ cut < consumed fs p, ∃ offset needed available,
        readRecord fs (p.take cut) = .error (.unexpectedEnd offset needed available)) ∧
    (∀ e, readRecord fs p = .error e → e.isEnd = false →
      ∀ extra, readRecord fs (p ++ extra) = .error e) ∧
    ∀ e extra v, readRecord fs p = .error e → readRecord fs (p ++ extra) = .ok v →
      e.isEnd = true := by
  refine ⟨fun v h => ⟨fun q hq => readRecord_agree fs p q v h hq, readRecord_cut fs p v h⟩,
    fun e h he extra => readRecord_more fs p extra e h he, ?_⟩
  intro e extra v h hlonger
  by_contra hend
  rw [readRecord_more fs p extra e h (by simpa using hend)] at hlonger
  cases hlonger

/-- A text and a truth value: cut inside the text, followed by other bytes, and with bytes in the
place of the text that are none. -/
theorem only_ends_are_repaired_text :
    let fs : List Field := [("memo", .text), ("flag", .bool)]
    let p : Bytes := [2, 0, 0, 0, 104, 105, 1, 9]
    let bad : Bytes := [1, 0, 0, 0, 255]
    let record : Value := .record [("memo", .text "hi"), ("flag", .bool true)]
    readRecord fs p = .ok record ∧ consumed fs p = 7 ∧
      readRecord fs [2, 0, 0, 0, 104, 105, 1] = .ok record ∧
      (∃ offset needed available,
        readRecord fs [2, 0, 0, 0, 104] = .error (.unexpectedEnd offset needed available)) ∧
      (ReadError.unexpectedEnd 4 2 1).isEnd = true ∧
      readRecord fs bad = .error (.badText 0) ∧
      ∀ extra, readRecord fs (bad ++ extra) = .error (.badText 0) := by
  intro fs p bad record
  have hrecord : readRecord fs p = .ok record := rfl
  have hbad : readRecord fs bad = .error (.badText 0) := rfl
  obtain ⟨hread, -, hrepaired⟩ := only_ends_are_repaired fs p
  obtain ⟨hagree, hcut⟩ := hread record hrecord
  obtain ⟨-, hfinal, -⟩ := only_ends_are_repaired fs bad
  obtain ⟨-, -, hend⟩ := only_ends_are_repaired fs [2, 0, 0, 0, 104]
  exact ⟨hrecord, rfl, (hagree [2, 0, 0, 0, 104, 105, 1] rfl).1, hcut 5 (by decide),
    hend _ [105, 1, 9] record rfl hrecord, hbad, hfinal _ hbad rfl⟩

end TaggedPayload
