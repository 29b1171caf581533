import Mathlib.Data.List.Basic
import TaggedPayload.Layout.FieldType
import TaggedPayload.Proofs.Text.Numerals

/-!
# Names of field types

Every field type is read back from its name. Besides these names there are a second one for keys and
numerals of any form for a width; blanks around a name do not count, and no other text is read.
-/

set_option autoImplicit false

namespace TaggedPayload

namespace FieldType

open Text (Numeral Tight)

def plainNames : List String :=
  ["u8", "u16", "u32", "u64", "u128", "i8", "i16", "i32", "i64", "i128", "bool", "pubkey", "string",
    "bytes"]

def fixedName (cs : List Char) : String :=
  "bytes<" ++ String.ofList cs ++ ">"

inductive Names : String → FieldType → Prop
  | plain (ty : FieldType) (h : ty.name ∈ plainNames) : Names ty.name ty
  | publicKey : Names "publicKey" .key
  | fixed (cs : List Char) (n : Nat) (h : Numeral cs n) : Names (fixedName cs) (.fixed n)

/-! ## Plain names -/

theorem plain_names : ∀ p ∈ FieldType.plain, Names p.1 p.2 := by
  have hplain : ∀ p ∈ FieldType.plain,
      p = ("publicKey", .key) ∨ p.1 = p.2.name ∧ p.2.name ∈ plainNames := by
    decide
  intro p hp
  rcases hplain p hp with rfl | ⟨hname, hmem⟩
  · exact .publicKey
  · rw [hname]
    exact .plain p.2 hmem

/-- A width is written behind a bracket, which no plain name has. -/
theorem fixedName_ne (cs : List Char) : ∀ p ∈ FieldType.plain, fixedName cs ≠ p.1 := by
  have hplain : ∀ p ∈ FieldType.plain, '<' ∉ p.1.toList := by decide
  intro p hp hname
  apply hplain p hp
  simp [← hname, fixedName]

theorem plainNames_plain : ∀ t ∈ plainNames, ∃ p ∈ FieldType.plain, p.1 = t := by
  decide

theorem fixedName_not_mem (cs : List Char) : fixedName cs ∉ plainNames := by
  intro hmem
  obtain ⟨p, hp, hname⟩ := plainNames_plain _ hmem
  exact fixedName_ne cs p hp hname.symm

theorem lookup_name (ty : FieldType) (h : ty.name ∈ plainNames) :
    FieldType.plain.lookup ty.name = some ty := by
  cases ty with
  | unsigned w => cases w <;> decide
  | signed w => cases w <;> decide
  | fixed n => exact absurd h (fixedName_not_mem (Text.decimal n))
  | _ => decide

theorem lookup_fixedName (cs : List Char) : FieldType.plain.lookup (fixedName cs) = none := by
  rw [List.lookup_eq_none_iff]
  intro p hp
  simpa using fixedName_ne cs p hp

theorem mem_of_lookup (t : String) (ty : FieldType) (h : FieldType.plain.lookup t = some ty) :
    (t, ty) ∈ FieldType.plain := by
  obtain ⟨before, after, hsplit, -⟩ := List.lookup_eq_some_iff.mp h
  rw [hsplit]
  simp

/-! ## Widths -/

theorem widthText?_eq_some_iff (t : String) (cs : List Char) :
    widthText? t.toList = some cs ↔ t = fixedName cs := by
  have hname : t = fixedName cs ↔ t.toList = "bytes<".toList ++ (cs ++ ['>']) := by
    rw [← String.toList_inj, fixedName]
    simp
  rw [hname, ← Text.after?_eq_some_iff, widthText?]
  cases Text.after? "bytes<".toList t.toList with
  | none => simp
  | some rest =>
    by_cases hlast : rest.getLast? = some '>'
    · obtain ⟨ds, rfl⟩ := List.getLast?_eq_some_iff.mp hlast
      simp
    · have hne : rest ≠ cs ++ ['>'] := by
        rintro rfl
        exact hlast (by simp)
      simp [hlast, hne]

/-! ## Reading -/

theorem ofText_ok_iff (s : String) (ty : FieldType) :
    ofText s = .ok ty ↔ Names (Text.trimmed s) ty := by
  rw [ofText]
  generalize Text.trimmed s = t
  constructor
  · intro h
    split at h
    next found hfound =>
      cases h
      exact plain_names _ (mem_of_lookup t ty hfound)
    next =>
      split at h
      next => cases h
      next cs hcs =>
        obtain rfl := (widthText?_eq_some_iff t cs).mp hcs
        split at h
        next n hn =>
          cases h
          exact .fixed cs n ((Text.readSize_ok_iff cs n).mp hn)
        next => cases h
  · rintro (⟨ty, h⟩ | _ | ⟨cs, n, h⟩)
    · simp [lookup_name ty h]
    · rfl
    · have hcs := (widthText?_eq_some_iff _ cs).mpr rfl
      simp [lookup_fixedName, hcs, (Text.readSize_ok_iff cs n).mpr h]

theorem Names.bound (t : String) (n : Nat) (h : Names t (.fixed n)) : n < 2 ^ 64 := by
  cases h with
  | plain _ h => exact absurd h (fixedName_not_mem (Text.decimal n))
  | fixed cs _ h =>
    obtain ⟨ds, -, -, -, -, hn⟩ := h
    exact hn

theorem name_mem (ty : FieldType) (h : ∀ n, ty ≠ .fixed n) : ty.name ∈ plainNames := by
  cases ty with
  | unsigned w => cases w <;> decide
  | signed w => cases w <;> decide
  | fixed n => exact absurd rfl (h n)
  | _ => decide

theorem names_name (ty : FieldType) (h : ∀ n, ty = .fixed n → n < 2 ^ 64) : Names ty.name ty := by
  by_cases hwidth : ∃ n, ty = .fixed n
  · obtain ⟨n, rfl⟩ := hwidth
    exact .fixed (Text.decimal n) n (Text.numeral_decimal n (h n rfl))
  · exact .plain ty (name_mem ty (not_exists.mp hwidth))

theorem fixedName_tight (cs : List Char) : Tight (fixedName cs).toList := by
  have hsplit : (fixedName cs).toList = 'b' :: ("ytes<".toList ++ cs ++ ['>']) := by
    simp [fixedName]
  rw [hsplit]
  constructor
  · rintro c ⟨⟩
    decide
  · intro c hc
    rw [← List.cons_append, List.getLast?_concat] at hc
    cases hc
    decide

theorem name_tight (ty : FieldType) : Tight ty.name.toList := by
  by_cases hwidth : ∃ n, ty = .fixed n
  · obtain ⟨n, rfl⟩ := hwidth
    exact fixedName_tight (Text.decimal n)
  · have hplain : ∀ t ∈ plainNames, t.toList.all (!Text.isBlank ·) := by decide
    have hchars : ∀ c ∈ ty.name.toList, Text.isBlank c = false := by
      simpa using hplain ty.name (name_mem ty (not_exists.mp hwidth))
    exact ⟨fun c hc => hchars c (List.mem_of_mem_head? hc),
      fun c hc => hchars c (List.mem_of_getLast? hc)⟩

theorem exists_names_iff (t : String) :
    (∃ ty, Names t ty) ↔
      t ∈ plainNames ∨ t = "publicKey" ∨ ∃ cs n, Numeral cs n ∧ t = fixedName cs := by
  constructor
  · rintro ⟨_, ⟨ty, h⟩ | _ | ⟨cs, n, h⟩⟩
    · exact .inl h
    · exact .inr (.inl rfl)
    · exact .inr (.inr ⟨cs, n, h, rfl⟩)
  · rintro (hmem | rfl | ⟨cs, n, h, rfl⟩)
    · obtain ⟨p, hp, rfl⟩ := plainNames_plain t hmem
      exact ⟨p.2, plain_names p hp⟩
    · exact ⟨.key, .publicKey⟩
    · exact ⟨.fixed n, .fixed cs n h⟩

theorem ofText_name (ty : FieldType) (h : ∀ n, ty = .fixed n → n < 2 ^ 64) :
    ofText ty.name = .ok ty := by
  rw [ofText_ok_iff, Text.trimmed, Text.trim_of_tight (name_tight ty), String.ofList_toList]
  exact names_name ty h

/-- A field type with a width below `2 ^ 64`, or without one, is read back from its name. A text is
read just if, without the blanks around it, it is one of fourteen names, the second name of a key,
or a width in brackets; the type that was read has a name that reads as the same type. -/
theorem type_names (ty : FieldType) (s : String) :
    ((∀ n, ty = .fixed n → n < 2 ^ 64) → ofText ty.name = .ok ty) ∧
    (ofText s = .ok ty ↔ Names (Text.trimmed s) ty) ∧
    ((∃ ty', ofText s = .ok ty') ↔ Text.trimmed s ∈ plainNames ∨ Text.trimmed s = "publicKey" ∨
      ∃ cs n, Numeral cs n ∧ Text.trimmed s = fixedName cs) ∧
    (ofText s = .ok ty → ofText ty.name = .ok ty) ∧
    Tight (Text.trimmed s).toList ∧
    ∃ before after, (∀ c ∈ before, Text.isBlank c) ∧ (∀ c ∈ after, Text.isBlank c) ∧
      s.toList = before ++ (Text.trimmed s).toList ++ after := by
  refine ⟨ofText_name ty, ofText_ok_iff s ty, ?_, fun hread => ?_, ?_, ?_⟩
  · rw [← exists_names_iff]
    exact exists_congr (ofText_ok_iff s)
  · apply ofText_name ty
    rintro n rfl
    exact ((ofText_ok_iff s _).mp hread).bound
  · rw [Text.trimmed, String.toList_ofList]
    exact Text.trim_tight s.toList
  · rw [Text.trimmed, String.toList_ofList]
    exact Text.trim_surrounded s.toList

/-- A width with a sign, zeros in front and blanks around it; its name has none of them. A blank
inside the brackets, or a width of `2 ^ 64`, makes no type. -/
theorem type_names_width :
    let ty : FieldType := .fixed (2 ^ 64 - 1)
    let s := "\tbytes<+0018446744073709551615> "
    (∀ n, ty = .fixed n → n < 2 ^ 64) ∧ ofText s = .ok ty ∧
      ty.name = "bytes<18446744073709551615>" ∧ ofText ty.name = .ok ty ∧
      (¬ ∃ ty', ofText "bytes<32 >" = .ok ty') ∧
      ¬ ∃ cs n, Numeral cs n ∧ Text.trimmed "bytes<18446744073709551616>" = fixedName cs := by
  intro ty s
  have hbound : ∀ n, ty = .fixed n → n < 2 ^ 64 := by
    intro n hn
    obtain rfl := FieldType.fixed.inj hn
    decide
  have hread : ofText s = .ok ty := by decide +kernel
  have hinner : ofText "bytes<32 >" = .error (.badWidth "bytes<32 >") := by decide +kernel
  have hlarge : ofText "bytes<18446744073709551616>" =
      .error (.badWidth "bytes<18446744073709551616>") := by decide +kernel
  obtain ⟨-, -, -, hagain, -⟩ := type_names ty s
  obtain ⟨-, -, hsome, -⟩ := type_names ty "bytes<18446744073709551616>"
  refine ⟨hbound, hread, by decide +kernel, hagain hread, ?_, fun hwidth => ?_⟩
  · rintro ⟨ty', hty'⟩
    rw [hinner] at hty'
    cases hty'
  · obtain ⟨ty', hty'⟩ := hsome.mpr (.inr (.inr hwidth))
    rw [hlarge] at hty'
    cases hty'

end FieldType

end TaggedPayload
