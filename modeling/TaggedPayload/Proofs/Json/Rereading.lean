import TaggedPayload.Proofs.Json.Spacing
import TaggedPayload.Proofs.Json.Tokens

/-!
# JSON trees read back from their texts

A tree of whole values is read back from its text, whatever the spacing: containers come back item
by item and member by member. The reader needs more fuel than the text has characters, and every
reader of whole texts gives it that; so the induction is on the fuel, as the readers of values,
items and members spend it.
-/

set_option autoImplicit false

namespace TaggedPayload.Json

mutual

/-- The tree holds no literal and nothing broken off. -/
def isWhole : Json → Bool
  | fraction _ => false
  | broken _ => false
  | array xs => itemsAreWhole xs
  | object ms => membersAreWhole ms
  | _ => true

def itemsAreWhole : List Json → Bool
  | [] => true
  | x :: xs => isWhole x && itemsAreWhole xs

def membersAreWhole : List (String × Json) → Bool
  | [] => true
  | (_, x) :: ms => isWhole x && membersAreWhole ms

end

/-! ## Texts -/

namespace Spacing

variable (sp : Spacing)

theorem items_endNumber (level : Nat) (xs : List Json) (rest : List Char) :
    EndsNumber (sp.items level xs ++ rest) := by
  cases xs with
  | nil =>
    rw [items, List.append_assoc]
    exact endsNumber_blanks _ _ (sp.gap_blank level) (endsNumber_cons _ _ (by decide))
  | cons x xs =>
    rw [items]
    exact endsNumber_cons _ _ (by decide)

theorem members_endNumber (level : Nat) (ms : List (String × Json)) (rest : List Char) :
    EndsNumber (sp.members level ms ++ rest) := by
  cases ms with
  | nil =>
    rw [members, List.append_assoc]
    exact endsNumber_blanks _ _ (sp.gap_blank level) (endsNumber_cons _ _ (by decide))
  | cons m ms =>
    rw [members]
    exact endsNumber_cons _ _ (by decide)

theorem items_length_pos (level : Nat) (xs : List Json) : 0 < (sp.items level xs).length := by
  cases xs <;> simp [items]

theorem members_length_pos (level : Nat) (ms : List (String × Json)) :
    0 < (sp.members level ms).length := by
  cases ms <;> simp [members]

/-- What a text starts with is neither a blank nor a closing bracket. -/
theorem text_head (level : Nat) (j : Json) (h : j.isWhole = true) :
    ∃ c cs, sp.text level j = c :: cs ∧ isBlank c = false ∧ c ≠ ']' := by
  cases j with
  | null => exact ⟨'n', "ull".toList, by rw [text]; rfl, rfl, by decide⟩
  | bool b =>
    cases b with
    | true => exact ⟨'t', "rue".toList, by rw [text]; rfl, rfl, by decide⟩
    | false => exact ⟨'f', "alse".toList, by rw [text]; rfl, rfl, by decide⟩
  | integer neg n =>
    cases neg with
    | true => exact ⟨'-', Text.decimal n, by rw [text]; rfl, rfl, by decide⟩
    | false =>
      cases hn : Text.decimal n with
      | nil => exact absurd hn (Text.decimal_ne_nil n)
      | cons d ds =>
        have hd : isDigit d = true := isDigit_decimal n d (by rw [hn]; exact List.mem_cons_self)
        exact ⟨d, ds, by rw [text, writeInteger, hn]; rfl, isBlank_of_isDigit d hd,
          ne_of_isDigit d _ hd rfl⟩
  | string s => exact ⟨'"', _, by rw [text, writeString], rfl, by decide⟩
  | array xs =>
    cases xs with
    | nil => exact ⟨'[', [']'], by rw [text], rfl, by decide⟩
    | cons x xs => exact ⟨'[', _, by rw [text], rfl, by decide⟩
  | object ms =>
    cases ms with
    | nil => exact ⟨'\x7b', ['\x7d'], by rw [text], rfl, by decide⟩
    | cons m ms => exact ⟨'\x7b', _, by rw [text], rfl, by decide⟩
  | fraction literal => cases h
  | broken part => cases h

end Spacing

/-! ## Values -/

theorem readWord_word (word : List Char) (tree : Json) (rest : List Char) :
    readWord word tree (word ++ rest) = (tree, some rest) := by
  simp [readWord]

theorem readValue_null (fuel : Nat) (rest : List Char) :
    readValue (fuel + 1) ("null".toList ++ rest) = (null, some rest) :=
  readWord_word "ull".toList null rest

theorem readValue_true (fuel : Nat) (rest : List Char) :
    readValue (fuel + 1) ("true".toList ++ rest) = (bool true, some rest) :=
  readWord_word "rue".toList (bool true) rest

theorem readValue_false (fuel : Nat) (rest : List Char) :
    readValue (fuel + 1) ("false".toList ++ rest) = (bool false, some rest) :=
  readWord_word "alse".toList (bool false) rest

theorem readValue_empty (fuel : Nat) (rest : List Char) :
    readValue (fuel + 1) (['[', ']'] ++ rest) = (array [], some rest) ∧
      readValue (fuel + 1) (['\x7b', '\x7d'] ++ rest) = (object [], some rest) :=
  ⟨rfl, rfl⟩

theorem readValue_integer (neg : Bool) (n fuel : Nat) (rest : List Char) (h : EndsNumber rest) :
    readValue (fuel + 1) (writeInteger neg n ++ rest) = (integer neg n, some rest) := by
  have hnumber := readNumber_decimal neg n rest h
  cases neg with
  | true =>
    rw [writeInteger, if_pos rfl, List.cons_append, readValue, skipBlanks_cons _ _ rfl]
    simpa using hnumber
  | false =>
    rw [writeInteger, if_neg (by decide)]
    cases hn : Text.decimal n with
    | nil => exact absurd hn (Text.decimal_ne_nil n)
    | cons d ds =>
      have hd : isDigit d = true := isDigit_decimal n d (by rw [hn]; exact List.mem_cons_self)
      rw [hn] at hnumber
      rw [List.cons_append, readValue, skipBlanks_cons _ _ (isBlank_of_isDigit d hd)]
      simpa [ne_of_isDigit d '"' hd rfl, ne_of_isDigit d '[' hd rfl, ne_of_isDigit d '\x7b' hd rfl,
        ne_of_isDigit d '-' hd rfl, hd] using hnumber

theorem readValue_string (s : String) (fuel : Nat) (rest : List Char) :
    readValue (fuel + 1) (writeString s ++ rest) = (string s, some rest) := by
  rw [writeString, List.cons_append, readValue, skipBlanks_cons _ _ rfl, List.append_assoc]
  simp [readString_string]

theorem readValue_items (fuel : Nat) (cs : List Char) (h : ∀ r, skipBlanks cs ≠ ']' :: r) :
    readValue (fuel + 1) ('[' :: cs) = readItems fuel [] cs := by
  rw [readValue, skipBlanks_cons _ _ rfl]
  simp only [Char.reduceEq, ↓reduceIte]

theorem readValue_members (fuel : Nat) (cs : List Char) (h : ∀ r, skipBlanks cs ≠ '\x7d' :: r) :
    readValue (fuel + 1) ('\x7b' :: cs) = readMembers fuel [] cs := by
  rw [readValue, skipBlanks_cons _ _ rfl]
  simp only [Char.reduceEq, ↓reduceIte]

theorem readItems_last (fuel : Nat) (done : List Json) (x : Json) (cs r rest : List Char)
    (hx : readValue fuel cs = (x, some r)) (hr : skipBlanks r = ']' :: rest) :
    readItems (fuel + 1) done cs = (array (done.reverse ++ [x]), some rest) := by
  simp [readItems, hx, hr]

theorem readItems_more (fuel : Nat) (done : List Json) (x : Json) (cs r rest : List Char)
    (hx : readValue fuel cs = (x, some r)) (hr : skipBlanks r = ',' :: rest) :
    readItems (fuel + 1) done cs = readItems fuel (x :: done) rest := by
  simp [readItems, hx, hr]

/-- The members as the reader gathers them, all keys being texts. -/
def gathered (ms : List (String × Json)) : List (Option String × Json) :=
  ms.map fun m => (some m.1, m.2)

theorem named_gathered (ms : List (String × Json)) :
    (gathered ms).filterMap (fun (k, x) => k.map (·, x)) = ms := by
  rw [gathered, List.filterMap_map]
  exact List.filterMap_some

theorem ofMembers_gathered (ms : List (String × Json)) : ofMembers (gathered ms) = object ms := by
  have hlength : (gathered ms).length = ms.length := List.length_map _
  rw [ofMembers, named_gathered, hlength]
  exact if_pos rfl

theorem gathered_append (ms : List (String × Json)) (key : String) (x : Json) :
    gathered (ms ++ [(key, x)]) = gathered ms ++ [(some key, x)] :=
  List.map_append

theorem skipBlanks_key (sp : Spacing) (level : Nat) (key : String) (cs : List Char) :
    skipBlanks (sp.gap level ++ (writeString key ++ cs)) =
      '"' :: (key.toList.flatMap escape ++ '"' :: cs) := by
  rw [skipBlanks_append _ _ (sp.gap_blank level), writeString, List.cons_append,
    skipBlanks_cons _ _ rfl, List.append_assoc]
  rfl

theorem readMembers_last (sp : Spacing) (level fuel : Nat) (done : List (String × Json))
    (key : String) (x : Json) (cs r rest : List Char) (hx : readValue fuel cs = (x, some r))
    (hr : skipBlanks r = '\x7d' :: rest) :
    readMembers (fuel + 1) (gathered done).reverse
        (sp.gap level ++ (writeString key ++ ':' :: cs)) =
      (object (done ++ [(key, x)]), some rest) := by
  have hcolon : skipBlanks (':' :: cs) = ':' :: cs := skipBlanks_cons _ _ rfl
  rw [readMembers, skipBlanks_key]
  simp [readString_string, hcolon, hx, hr, ← gathered_append, ofMembers_gathered]

theorem readMembers_more (sp : Spacing) (level fuel : Nat) (done : List (String × Json))
    (key : String) (x : Json) (cs r rest : List Char) (hx : readValue fuel cs = (x, some r))
    (hr : skipBlanks r = ',' :: rest) :
    readMembers (fuel + 1) (gathered done).reverse
        (sp.gap level ++ (writeString key ++ ':' :: cs)) =
      readMembers fuel (gathered (done ++ [(key, x)])).reverse rest := by
  have hcolon : skipBlanks (':' :: cs) = ':' :: cs := skipBlanks_cons _ _ rfl
  rw [readMembers, skipBlanks_key]
  simp [readString_string, hcolon, hx, hr, gathered_append]

/-- With this much fuel the texts that are shorter are read back, whatever stands behind them. -/
structure ReadsBack (sp : Spacing) (fuel : Nat) : Prop where
  value : ∀ (level : Nat) (j : Json) (rest : List Char), j.isWhole = true →
    (sp.text level j).length < fuel → EndsNumber rest →
      readValue fuel (sp.text level j ++ rest) = (j, some rest)
  items : ∀ (level : Nat) (x : Json) (xs done : List Json) (rest : List Char), x.isWhole = true →
    itemsAreWhole xs = true →
    (sp.text (level + 1) x).length + (sp.items level xs).length < fuel →
      readItems fuel done
          (sp.gap (level + 1) ++ (sp.text (level + 1) x ++ (sp.items level xs ++ rest))) =
        (array (done.reverse ++ x :: xs), some rest)
  members : ∀ (level : Nat) (key : String) (x : Json) (ms done : List (String × Json))
    (rest : List Char), x.isWhole = true → membersAreWhole ms = true →
    (sp.text (level + 1) x).length + (sp.members level ms).length < fuel →
      readMembers fuel (gathered done).reverse
          (sp.gap (level + 1) ++ (writeString key ++ ':' :: (sp.pad ++
            (sp.text (level + 1) x ++ (sp.members level ms ++ rest))))) =
        (object (done ++ (key, x) :: ms), some rest)

namespace ReadsBack

variable {sp : Spacing} {fuel : Nat}

theorem array_step (ih : ReadsBack sp fuel) (level : Nat) (x : Json) (xs : List Json)
    (rest : List Char) (hxs : (array (x :: xs)).isWhole = true)
    (hfuel : (sp.text level (array (x :: xs))).length < fuel + 1) :
    readValue (fuel + 1) (sp.text level (array (x :: xs)) ++ rest) =
      (array (x :: xs), some rest) := by
  rw [isWhole, itemsAreWhole, Bool.and_eq_true] at hxs
  rw [Spacing.text] at hfuel ⊢
  simp only [List.length_cons, List.length_append] at hfuel
  obtain ⟨c, cs, hhead, hblank, hc⟩ := sp.text_head (level + 1) x hxs.1
  rw [List.cons_append, readValue_items]
  · have hitems := ih.items level x xs [] rest hxs.1 hxs.2 (by omega)
    simpa using hitems
  · intro r hr
    rw [List.append_assoc, skipBlanks_append _ _ (sp.gap_blank _), hhead, List.append_assoc,
      List.cons_append, skipBlanks_cons _ _ hblank] at hr
    exact hc (List.cons.inj hr).1

theorem object_step (ih : ReadsBack sp fuel) (level : Nat) (key : String) (x : Json)
    (ms : List (String × Json)) (rest : List Char)
    (hms : (object ((key, x) :: ms)).isWhole = true)
    (hfuel : (sp.text level (object ((key, x) :: ms))).length < fuel + 1) :
    readValue (fuel + 1) (sp.text level (object ((key, x) :: ms)) ++ rest) =
      (object ((key, x) :: ms), some rest) := by
  rw [isWhole, membersAreWhole, Bool.and_eq_true] at hms
  rw [Spacing.text] at hfuel ⊢
  simp only [List.length_cons, List.length_append] at hfuel
  rw [List.cons_append, readValue_members]
  · have hmembers := ih.members level key x ms [] rest hms.1 hms.2 (by omega)
    simpa [gathered] using hmembers
  · intro r hr
    rw [List.append_assoc, List.append_assoc, skipBlanks_key] at hr
    exact absurd (List.cons.inj hr).1 (by decide)

theorem value_step (ih : ReadsBack sp fuel) (level : Nat) (j : Json) (rest : List Char)
    (hj : j.isWhole = true) (hfuel : (sp.text level j).length < fuel + 1)
    (hrest : EndsNumber rest) :
    readValue (fuel + 1) (sp.text level j ++ rest) = (j, some rest) := by
  cases j with
  | null =>
    rw [Spacing.text]
    exact readValue_null fuel rest
  | bool b =>
    cases b with
    | true =>
      rw [Spacing.text]
      exact readValue_true fuel rest
    | false =>
      rw [Spacing.text]
      exact readValue_false fuel rest
  | integer neg n =>
    rw [Spacing.text]
    exact readValue_integer neg n fuel rest hrest
  | string s =>
    rw [Spacing.text]
    exact readValue_string s fuel rest
  | array xs =>
    cases xs with
    | nil =>
      rw [Spacing.text]
      exact (readValue_empty fuel rest).1
    | cons x xs => exact ih.array_step level x xs rest hj hfuel
  | object ms =>
    cases ms with
    | nil =>
      rw [Spacing.text]
      exact (readValue_empty fuel rest).2
    | cons m ms => exact ih.object_step level m.1 m.2 ms rest hj hfuel
  | fraction literal => cases hj
  | broken part => cases hj

theorem items_step (ih : ReadsBack sp fuel) (level : Nat) (x : Json) (xs done : List Json)
    (rest : List Char) (hx : x.isWhole = true) (hxs : itemsAreWhole xs = true)
    (hfuel : (sp.text (level + 1) x).length + (sp.items level xs).length < fuel + 1) :
    readItems (fuel + 1) done
        (sp.gap (level + 1) ++ (sp.text (level + 1) x ++ (sp.items level xs ++ rest))) =
      (array (done.reverse ++ x :: xs), some rest) := by
  have hpos := sp.items_length_pos level xs
  have hread := ih.value (level + 1) x _ hx (by omega) (sp.items_endNumber level xs rest)
  rw [← readValue_blanks _ _ _ (sp.gap_blank (level + 1))] at hread
  cases xs with
  | nil =>
    apply readItems_last fuel done x _ _ rest hread
    rw [Spacing.items, List.append_assoc, skipBlanks_append _ _ (sp.gap_blank level)]
    exact skipBlanks_cons _ _ rfl
  | cons y ys =>
    rw [itemsAreWhole, Bool.and_eq_true] at hxs
    obtain ⟨c, cs, hhead, -, -⟩ := sp.text_head (level + 1) x hx
    rw [hhead] at hfuel
    rw [Spacing.items] at hread hfuel ⊢
    simp only [List.length_cons, List.length_append] at hfuel
    rw [readItems_more fuel done x _ _ _ hread (skipBlanks_cons _ _ rfl)]
    have hmore := ih.items level y ys (x :: done) rest hxs.1 hxs.2 (by omega)
    simpa using hmore

theorem members_step (ih : ReadsBack sp fuel) (level : Nat) (key : String) (x : Json)
    (ms done : List (String × Json)) (rest : List Char) (hx : x.isWhole = true)
    (hms : membersAreWhole ms = true)
    (hfuel : (sp.text (level + 1) x).length + (sp.members level ms).length < fuel + 1) :
    readMembers (fuel + 1) (gathered done).reverse
        (sp.gap (level + 1) ++ (writeString key ++ ':' :: (sp.pad ++
          (sp.text (level + 1) x ++ (sp.members level ms ++ rest))))) =
      (object (done ++ (key, x) :: ms), some rest) := by
  have hpos := sp.members_length_pos level ms
  have hread := ih.value (level + 1) x _ hx (by omega) (sp.members_endNumber level ms rest)
  rw [← readValue_blanks _ _ _ sp.pad_blank] at hread
  cases ms with
  | nil =>
    apply readMembers_last sp (level + 1) fuel done key x _ _ rest hread
    rw [Spacing.members, List.append_assoc, skipBlanks_append _ _ (sp.gap_blank level)]
    exact skipBlanks_cons _ _ rfl
  | cons m ms =>
    obtain ⟨k, y⟩ := m
    rw [membersAreWhole, Bool.and_eq_true] at hms
    obtain ⟨c, cs, hhead, -, -⟩ := sp.text_head (level + 1) x hx
    rw [hhead] at hfuel
    rw [Spacing.members] at hread hfuel ⊢
    simp only [List.length_cons, List.length_append] at hfuel
    rw [readMembers_more sp (level + 1) fuel done key x _ _ _ hread (skipBlanks_cons _ _ rfl)]
    have hmore := ih.members level k y ms (done ++ [(key, x)]) rest hms.1 hms.2 (by omega)
    simpa using hmore

end ReadsBack

/-- Every text is read back, by induction on the fuel as the three readers spend it. -/
theorem readsBack (sp : Spacing) (fuel : Nat) : ReadsBack sp fuel := by
  induction fuel with
  | zero => exact ⟨nofun, nofun, nofun⟩
  | succ fuel ih => exact ⟨ih.value_step, ih.items_step, ih.members_step⟩

/-! ## Whole texts -/

theorem ofText_spaced {α : Type} (ofTree : Json → Except JsonFault α) (sp : Spacing) (j : Json)
    (hj : j.isWhole = true) : ofText ofTree (String.ofList (sp.text 0 j)) = ofTree j := by
  have hread := (readsBack sp ((sp.text 0 j).length + 1)).value 0 j [] hj (Nat.lt_succ_self _) nofun
  rw [List.append_nil] at hread
  rw [ofText, String.length_ofList, String.toList_ofList, hread]
  simp only [skipBlanks]
  cases ofTree j <;> rfl

/-- Reading a compact text is reading the tree that was written. -/
theorem ofText_text {α : Type} (ofTree : Json → Except JsonFault α) (j : Json)
    (hj : j.isWhole = true) : ofText ofTree j.text = ofTree j := by
  rw [text, ← Spacing.text_tight 0 j]
  exact ofText_spaced ofTree .tight j hj

theorem ofText_prettyText {α : Type} (ofTree : Json → Except JsonFault α) (j : Json)
    (hj : j.isWhole = true) : ofText ofTree j.prettyText = ofTree j := by
  rw [prettyText, ← Spacing.text_indented 0 j]
  exact ofText_spaced ofTree .indented j hj

end TaggedPayload.Json
