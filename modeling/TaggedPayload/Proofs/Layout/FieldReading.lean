import TaggedPayload.Proofs.Layout.FieldEncoding
import TaggedPayload.Proofs.Text.Utf8Shortest

/-!
# What reading fields consumes

A read that succeeds has taken the encoding of what it returns, and nothing else. So reading and
writing the fields of a record undo each other in both directions, and a record has one encoding:
no two byte strings that reading consumes stand for the same record.
-/

set_option autoImplicit false

namespace TaggedPayload

namespace Cursor

/-- A read that started here has taken these bytes and ended there. -/
def Took (c : Cursor) (bs : Bytes) (c' : Cursor) : Prop :=
  c.rest = bs ++ c'.rest ∧ c'.position = c.position + bs.length

theorem Took.append {c c' c'' : Cursor} {as bs : Bytes} (ha : c.Took as c') (hb : c'.Took bs c'') :
    c.Took (as ++ bs) c'' := by
  obtain ⟨hrest, hposition⟩ := ha
  obtain ⟨hrest', hposition'⟩ := hb
  constructor
  · rw [hrest, hrest', List.append_assoc]
  · rw [hposition', hposition, List.length_append, Nat.add_assoc]

/-! ## Single reads -/

theorem take_ok (n : Nat) (c c' : Cursor) (bs : Bytes) (h : c.take n = (.ok bs, c')) :
    bs.length = n ∧ c.Took bs c' := by
  rw [take] at h
  split at h
  · next hn =>
    cases h
    have hlen : (c.rest.take n).length = n := by rw [List.length_take, Nat.min_eq_left hn]
    exact ⟨hlen, (List.take_append_drop n c.rest).symm, by rw [hlen]⟩
  · cases h

/-- A read whose outcome is turned into something else. -/
theorem map_ok {α β : Type} (read : Except ReadError α × Cursor) (f : α → β) (y : β) (c' : Cursor)
    (h : (read.1.map f, read.2) = (.ok y, c')) : ∃ x, read = (.ok x, c') ∧ f x = y := by
  obtain ⟨hy, rfl⟩ := Prod.mk.inj h
  obtain ⟨x, hx, rfl⟩ := map_eq_ok _ _ _ hy
  exact ⟨x, Prod.ext hx rfl, rfl⟩

theorem unsigned_ok (w n : Nat) (c c' : Cursor) (h : c.unsigned w = (.ok n, c')) :
    n < Bytes.span w ∧ c.Took (Bytes.ofNat w n) c' := by
  obtain ⟨bs, hbs, rfl⟩ := map_ok (c.take w) Bytes.toNat n c' h
  obtain ⟨rfl, htook⟩ := take_ok w c c' bs hbs
  rw [Bytes.ofNat_toNat]
  exact ⟨Bytes.toNat_lt bs, htook⟩

theorem signed_ok (w : Nat) (i : Int) (c c' : Cursor) (h : c.signed w = (.ok i, c')) :
    (-(Bytes.span w : Int) ≤ 2 * i ∧ 2 * i < Bytes.span w) ∧ c.Took (Bytes.ofInt w i) c' := by
  obtain ⟨bs, hbs, rfl⟩ := map_ok (c.take w) Bytes.toInt i c' h
  obtain ⟨rfl, htook⟩ := take_ok w c c' bs hbs
  rw [Bytes.ofInt_toInt]
  exact ⟨Bytes.toInt_range bs, htook⟩

theorem bool_ok (b : Bool) (c c' : Cursor) (h : c.bool = (.ok b, c')) :
    c.Took [if b then 1 else 0] c' := by
  rw [bool] at h
  rcases ht : c.take 1 with ⟨r, c₁⟩
  rw [ht] at h
  cases r with
  | error e => cases h
  | ok bs =>
    have htook := (take_ok 1 c c₁ bs ht).2
    simp only [Prod.mk.injEq] at h
    obtain ⟨hb, rfl⟩ := h
    split at hb
    · cases hb
      exact htook
    · cases hb
      exact htook
    · cases hb
    · cases hb

theorem key_ok (k : AccountKey) (c c' : Cursor) (h : c.key = (.ok k, c')) : c.Took k.bytes c' := by
  rw [key] at h
  split at h
  · next hn =>
    cases h
    constructor
    · exact (List.take_append_drop 32 c.rest).symm
    · rw [List.length_take, Nat.min_eq_left hn]
  · cases h

theorem block_ok (bs : Bytes) (c c' : Cursor) (h : c.block = (.ok bs, c')) :
    bs.length < 2 ^ 32 ∧ c.Took (FieldType.blockOf bs) c' := by
  rw [block] at h
  rcases hn : c.unsigned 4 with ⟨r, c₁⟩
  rw [hn] at h
  cases r with
  | error e => cases h
  | ok n =>
    obtain ⟨hlt, hlength⟩ := unsigned_ok 4 n c c₁ hn
    obtain ⟨rfl, htook⟩ := take_ok n c₁ c' bs h
    exact ⟨hlt, hlength.append htook⟩

theorem text_ok (s : String) (c c' : Cursor) (h : c.text = (.ok s, c')) :
    (Text.utf8Of s).length < 2 ^ 32 ∧ c.Took (FieldType.blockOf (Text.utf8Of s)) c' := by
  rw [text] at h
  rcases hb : c.block with ⟨r, c₁⟩
  rw [hb] at h
  cases r with
  | error e => cases h
  | ok bs =>
    simp only [Prod.mk.injEq] at h
    obtain ⟨hs, rfl⟩ := h
    split at hs
    · next t hread =>
      cases hs
      rw [Text.utf8Of_of_readUtf8 bs s hread]
      exact block_ok bs c c₁ hb
    · cases hs

end Cursor

/-! ## Fields -/

theorem FieldType.read_ok (ty : FieldType) (c c' : Cursor) (v : Value)
    (h : ty.read c = (.ok v, c')) :
    ty.Fits v ∧ ∃ bs, ty.encode v = some bs ∧ c.Took bs c' := by
  cases ty with
  | unsigned w =>
    obtain ⟨n, hn, rfl⟩ := Cursor.map_ok (c.unsigned w.size) Value.uint v c' h
    obtain ⟨hlt, htook⟩ := Cursor.unsigned_ok w.size n c c' hn
    refine ⟨?_, _, rfl, htook⟩
    show n < 2 ^ w.bits
    rwa [unsigned_range]
  | signed w =>
    obtain ⟨i, hi, rfl⟩ := Cursor.map_ok (c.signed w.size) Value.int v c' h
    obtain ⟨⟨hl, hu⟩, htook⟩ := Cursor.signed_ok w.size i c c' hi
    have hw := signed_range w
    refine ⟨?_, _, rfl, htook⟩
    show -(2 ^ (w.bits - 1) : Nat) ≤ i ∧ i < (2 ^ (w.bits - 1) : Nat)
    omega
  | bool =>
    obtain ⟨b, hb, rfl⟩ := Cursor.map_ok c.bool Value.bool v c' h
    exact ⟨trivial, _, rfl, Cursor.bool_ok b c c' hb⟩
  | key =>
    obtain ⟨k, hk, rfl⟩ := Cursor.map_ok c.key Value.ofKey v c' h
    refine ⟨⟨k, rfl⟩, k.bytes, ?_, Cursor.key_ok k c c' hk⟩
    rw [Value.ofKey, encode, AccountKey.ofText_text]
    rfl
  | text =>
    obtain ⟨s, hs, rfl⟩ := Cursor.map_ok c.text Value.text v c' h
    obtain ⟨hlt, htook⟩ := Cursor.text_ok s c c' hs
    exact ⟨hlt, _, rfl, htook⟩
  | block =>
    obtain ⟨bs, hbs, rfl⟩ := Cursor.map_ok c.block Value.bytes v c' h
    obtain ⟨hlt, htook⟩ := Cursor.block_ok bs c c' hbs
    exact ⟨hlt, _, rfl, htook⟩
  | fixed n =>
    obtain ⟨bs, hbs, rfl⟩ := Cursor.map_ok (c.take n) Value.bytes v c' h
    obtain ⟨hlen, htook⟩ := Cursor.take_ok n c c' bs hbs
    exact ⟨hlen, bs, rfl, htook⟩

theorem readFields_first (f : Field) (fs : List Field) (c : Cursor) :
    (readFields (f :: fs) c).1 =
      (f.2.read c).1 >>= fun v => (readFields fs (f.2.read c).2).1.map ((f.1, v) :: ·) := by
  rw [readFields]
  rcases f.2.read c with ⟨_ | v, c'⟩ <;> rfl

theorem readFields_ok (fs : List Field) (c c' : Cursor) (entries : List (String × Value))
    (h : readFields fs c = (.ok entries, c')) :
    ∃ vs, FieldsFit fs vs ∧ entries = named fs vs ∧
      ∃ bs, encodeFields fs vs = some bs ∧ c.Took bs c' := by
  induction fs generalizing c entries with
  | nil =>
    cases h
    exact ⟨[], .nil, rfl, [], rfl, rfl, rfl⟩
  | cons f fs ih =>
    rw [readFields] at h
    rcases hv : f.2.read c with ⟨r, c₁⟩
    rw [hv] at h
    cases r with
    | error e => cases h
    | ok v =>
      obtain ⟨later, hlater, rfl⟩ := Cursor.map_ok (readFields fs c₁) ((f.1, v) :: ·) entries c' h
      obtain ⟨hfit, bs, hbs, htook⟩ := FieldType.read_ok f.2 c c₁ v hv
      obtain ⟨vs, hvs, rfl, bs', hbs', htook'⟩ := ih c₁ later hlater
      refine ⟨v :: vs, .cons hfit hvs, rfl, bs ++ bs', ?_, htook.append htook'⟩
      rw [encodeFields, hbs, hbs']
      rfl

def consumed (fs : List Field) (payload : Bytes) : Nat :=
  (readFields fs (.start payload)).2.position

theorem readRecord_ok (fs : List Field) (payload : Bytes) (v : Value)
    (h : readRecord fs payload = .ok v) :
    ∃ vs, FieldsFit fs vs ∧ v = .record (named fs vs) ∧ consumed fs payload ≤ payload.length ∧
      encodeFields fs vs = some (payload.take (consumed fs payload)) := by
  obtain ⟨entries, hread, rfl⟩ := Cursor.map_ok (readFields fs (.start payload)) Value.record v
    (readFields fs (.start payload)).2 (Prod.ext h rfl)
  obtain ⟨vs, hvs, rfl, bs, hbs, hrest, hposition⟩ := readFields_ok fs _ _ _ hread
  have hconsumed : consumed fs payload = bs.length := hposition.trans (Nat.zero_add _)
  have hpayload : payload = bs ++ (readFields fs (.start payload)).2.rest := hrest
  refine ⟨vs, hvs, rfl, ?_, ?_⟩
  · rw [hconsumed, hpayload, List.length_append]
    exact Nat.le_add_right _ _
  · rw [hbs, hconsumed]
    congr 1
    rw [hpayload, List.take_left]

theorem named_injective (fs : List Field) (vs ws : List Value) (hv : FieldsFit fs vs)
    (hw : FieldsFit fs ws) (h : named fs vs = named fs ws) : vs = ws := by
  have hv' : (fs.map (·.1)).length = vs.length := by rw [List.length_map, hv.length_eq]
  have hw' : (fs.map (·.1)).length = ws.length := by rw [List.length_map, hw.length_eq]
  have hsnd := congrArg (List.map Prod.snd) h
  rwa [named, named, List.map_snd_zip (Nat.le_of_eq hv'.symm),
    List.map_snd_zip (Nat.le_of_eq hw'.symm)] at hsnd

theorem consumed_encode (fs : List Field) (vs : List Value) (h : FieldsFit fs vs) :
    ∃ bs, encodeFields fs vs = some bs ∧ ∀ rest,
      readRecord fs (bs ++ rest) = .ok (.record (named fs vs)) ∧
        consumed fs (bs ++ rest) = bs.length := by
  obtain ⟨bs, hbs, hread⟩ := readFields_encode fs vs h
  refine ⟨bs, hbs, fun rest => ?_⟩
  have hfields : readFields fs (.start (bs ++ rest)) = _ := hread 0 rest
  constructor
  · rw [readRecord, hfields]
    rfl
  · rw [consumed, hfields]
    exact Nat.zero_add _

/-- Reading and writing the fields of a record undo each other. What is written is read back and no
byte behind it is taken; what is read was written, in the bytes that reading took; so one record is
never read from two different byte strings. -/
theorem reading_inverts_writing (fs : List Field) :
    (∀ values, FieldsFit fs values →
      ∃ bs, encodeFields fs values = some bs ∧ ∀ rest,
        readRecord fs (bs ++ rest) = .ok (.record (named fs values)) ∧
          consumed fs (bs ++ rest) = bs.length) ∧
    (∀ payload v, readRecord fs payload = .ok v →
      ∃ values, FieldsFit fs values ∧ v = .record (named fs values) ∧
        consumed fs payload ≤ payload.length ∧
        encodeFields fs values = some (payload.take (consumed fs payload))) ∧
    ∀ p q v, readRecord fs p = .ok v → readRecord fs q = .ok v →
      p.take (consumed fs p) = q.take (consumed fs q) := by
  refine ⟨consumed_encode fs, readRecord_ok fs, fun p q v hp hq => ?_⟩
  obtain ⟨values, hvalues, rfl, -, hbytes⟩ := readRecord_ok fs p v hp
  obtain ⟨values', hvalues', hv, -, hbytes'⟩ := readRecord_ok fs q _ hq
  obtain rfl : values = values' :=
    named_injective fs values values' hvalues hvalues' (Value.record.inj hv)
  exact Option.some.inj (hbytes.symm.trans hbytes')

/-- A negative number, a text, a key and bytes of a fixed width, with two bytes behind them. -/
theorem reading_inverts_writing_mixed :
    let fs : List Field :=
      [("delta", .signed .two), ("memo", .text), ("owner", .key), ("salt", .fixed 2)]
    let k : AccountKey := ⟨List.replicate 32 7, rfl⟩
    let values : List Value := [.int (-2), .text "hé", .ofKey k, .bytes [1, 2]]
    let bs : Bytes := [254, 255, 3, 0, 0, 0, 104, 195, 169] ++ k.bytes ++ [1, 2]
    FieldsFit fs values ∧ encodeFields fs values = some bs ∧
      readRecord fs (bs ++ [9, 9]) = .ok (.record (named fs values)) ∧
      consumed fs (bs ++ [9, 9]) = 43 ∧
      ∀ payload, readRecord fs payload = .ok (.record (named fs values)) →
        payload.take (consumed fs payload) = bs := by
  intro fs k values bs
  have hfit : FieldsFit fs values :=
    .cons (show -(2 ^ 15 : Nat) ≤ (-2 : Int) ∧ (-2 : Int) < (2 ^ 15 : Nat) by omega)
      (.cons (show (Text.utf8Of "hé").length < 2 ^ 32 by decide +kernel)
        (.cons ⟨k, rfl⟩ (.cons rfl .nil)))
  have hbytes : encodeFields fs values = some bs := by
    simp only [fs, values, Value.ofKey, encodeFields, FieldType.encode, AccountKey.ofText_text]
    decide +kernel
  obtain ⟨hwrite, hread, hone⟩ := reading_inverts_writing fs
  obtain ⟨bs', hbs', hback⟩ := hwrite values hfit
  obtain rfl : bs = bs' := Option.some.inj (hbytes.symm.trans hbs')
  obtain ⟨hrecord, hlength⟩ := hback [9, 9]
  refine ⟨hfit, hbytes, hrecord, hlength, fun payload hpayload => ?_⟩
  rw [hone payload _ _ hpayload hrecord, hlength, List.take_left]

end TaggedPayload
