import TaggedPayload.Value.Json
import TaggedPayload.Proofs.Json.Rereading

/-!
# Values read back from JSON

A value writes its type before its content, so nothing of it has to be kept until the type is known
and every integer is read exactly. What is read back is the value, as long as its numbers have a
type that holds them and the reader may open as many containers as its tree has inside one another.
-/

set_option autoImplicit false

namespace TaggedPayload

namespace Json

mutual

def nesting : Json → Nat
  | array xs => itemsNesting xs + 1
  | object ms => membersNesting ms + 1
  | broken part => nesting part
  | _ => 0

def itemsNesting : List Json → Nat
  | [] => 0
  | x :: xs => max (nesting x) (itemsNesting xs)

def membersNesting : List (String × Json) → Nat
  | [] => 0
  | (_, x) :: ms => max (nesting x) (membersNesting ms)

end

end Json

namespace Value

mutual

def inRange : Value → Bool
  | uint n => decide (n < uintBound)
  | int i => decide (-(intBound : Int) ≤ i ∧ i < intBound)
  | array xs => itemsInRange xs
  | record fs => fieldsInRange fs
  | _ => true

def itemsInRange : List Value → Bool
  | [] => true
  | x :: xs => inRange x && itemsInRange xs

def fieldsInRange : List (String × Value) → Bool
  | [] => true
  | (_, x) :: fs => inRange x && fieldsInRange fs

end

/-! ## What is written -/

theorem isWhole_typed (s : Value.Sort) (content : Json) :
    (typed s content).isWhole = content.isWhole := by
  simp [typed, Json.isWhole, Json.membersAreWhole]

theorem nesting_typed (s : Value.Sort) (content : Json) :
    (typed s content).nesting = content.nesting + 1 := by
  simp [typed, Json.nesting, Json.membersNesting]

theorem nesting_toJson_pos (v : Value) : 1 ≤ v.toJson.nesting := by
  cases v <;> exact Nat.le_add_left 1 _

theorem itemsAreWhole_bytes (bs : Bytes) :
    Json.itemsAreWhole (bs.map fun b => .nat b.toNat) = true := by
  induction bs with
  | nil => rfl
  | cons b bs ih => simpa [Json.itemsAreWhole, Json.nat, Json.isWhole] using ih

mutual

theorem isWhole_toJson (v : Value) : v.toJson.isWhole = true := by
  cases v with
  | null => rfl
  | uint n => exact isWhole_typed .uint (.nat n)
  | int i => cases i <;> exact isWhole_typed .int _
  | bool b => exact isWhole_typed .bool (.bool b)
  | bytes bs => rw [toJson, isWhole_typed, Json.isWhole, itemsAreWhole_bytes]
  | text s => exact isWhole_typed .text (.string s)
  | key s => exact isWhole_typed .key (.string s)
  | array xs => rw [toJson, isWhole_typed, Json.isWhole, itemsAreWhole_toJson xs]
  | record fs => rw [toJson, isWhole_typed, Json.isWhole, fieldsAreWhole_toJson fs]

theorem itemsAreWhole_toJson (xs : List Value) : Json.itemsAreWhole (itemsToJson xs) = true := by
  match xs with
  | [] => rfl
  | x :: xs => simp [itemsToJson, Json.itemsAreWhole, isWhole_toJson x, itemsAreWhole_toJson xs]

theorem fieldsAreWhole_toJson (fs : List (String × Value)) :
    Json.itemsAreWhole (fieldsToJson fs) = true := by
  match fs with
  | [] => rfl
  | (name, x) :: fs =>
    simp [fieldsToJson, Json.itemsAreWhole, Json.isWhole, isWhole_toJson x, fieldsAreWhole_toJson fs]

end

/-! ## What is read -/

theorem uintOfJson?_nat (n : Nat) (h : n < uintBound) : uintOfJson? (.nat n) = some (uint n) :=
  if_pos h

theorem intOfJson?_int (i : Int) (h : -(intBound : Int) ≤ i ∧ i < intBound) :
    intOfJson? (.int i) = some (int i) := by
  cases i with
  | ofNat n =>
    have hn : n < intBound := Int.ofNat_lt.mp h.2
    exact if_pos hn
  | negSucc n =>
    have hn : n + 1 ≤ intBound := by omega
    exact if_pos hn

theorem mapM_byteOfJson? (bs : Bytes) :
    (bs.map fun b => Json.nat b.toNat).mapM byteOfJson? = some bs := by
  induction bs with
  | nil => rfl
  | cons b bs ih =>
    have hb : byteOfJson? (.nat b.toNat) = some b := by
      rw [Json.nat, byteOfJson?, if_pos b.toNat_lt, UInt8.ofNat_toNat]
    rw [List.map_cons, List.mapM_cons, hb, ih]
    rfl

def fieldOfJson? (budget : Nat) : Json → Option (String × Value)
  | .array [.string name, x] => (ofJson? budget false x).map (name, ·)
  | _ => none

/-- An integer stands behind its type, so it is never content that was kept. -/
theorem ofJson?_uint (budget : Nat) (j : Json) :
    ofJson? (budget + 1) false (typed .uint j) = uintOfJson? j :=
  rfl

theorem ofJson?_int (budget : Nat) (j : Json) :
    ofJson? (budget + 1) false (typed .int j) = intOfJson? j :=
  rfl

theorem ofJson?_bytes (budget : Nat) (xs : List Json) :
    ofJson? (budget + 2) false (typed .bytes (.array xs)) = (xs.mapM byteOfJson?).map bytes :=
  rfl

theorem ofJson?_array (budget : Nat) (xs : List Json) :
    ofJson? (budget + 2) false (typed .array (.array xs)) =
      (xs.mapM (ofJson? budget false)).map array :=
  rfl

theorem ofJson?_record (budget : Nat) (xs : List Json) :
    ofJson? (budget + 3) false (typed .record (.array xs)) =
      (xs.mapM (fieldOfJson? budget)).map record :=
  rfl

theorem ofJson?_noFields (budget : Nat) :
    ofJson? (budget + 2) false (typed .record (.array [])) = some (record []) := by
  cases budget <;> rfl

mutual

theorem ofJson?_toJson (v : Value) (budget : Nat) (hv : v.inRange = true)
    (hbudget : v.toJson.nesting ≤ budget) : ofJson? budget false v.toJson = some v := by
  obtain ⟨budget, rfl⟩ := Nat.exists_eq_add_of_le' (Nat.le_trans (nesting_toJson_pos v) hbudget)
  cases v with
  | null => rfl
  | uint n =>
    rw [inRange, decide_eq_true_iff] at hv
    rw [toJson, ofJson?_uint, uintOfJson?_nat n hv]
  | int i =>
    rw [inRange, decide_eq_true_iff] at hv
    rw [toJson, ofJson?_int, intOfJson?_int i hv]
  | bool b => rfl
  | bytes bs =>
    rw [toJson, nesting_typed, Json.nesting] at hbudget
    obtain ⟨budget, rfl⟩ : ∃ n, budget = n + 1 := Nat.exists_eq_add_of_le' (by omega)
    rw [toJson, ofJson?_bytes, mapM_byteOfJson?]
    rfl
  | text s => rfl
  | key s => rfl
  | array xs =>
    rw [inRange] at hv
    rw [toJson, nesting_typed, Json.nesting] at hbudget
    obtain ⟨budget, rfl⟩ : ∃ n, budget = n + 1 := Nat.exists_eq_add_of_le' (by omega)
    rw [toJson, ofJson?_array, itemsOfJson?_toJson xs budget hv (by omega)]
    rfl
  | record fs =>
    rw [inRange] at hv
    rw [toJson, nesting_typed, Json.nesting] at hbudget
    cases fs with
    | nil =>
      obtain ⟨budget, rfl⟩ : ∃ n, budget = n + 1 := Nat.exists_eq_add_of_le' (by omega)
      exact ofJson?_noFields budget
    | cons f fs =>
      -- A field is a list of its name and its value, one more container.
      have hfield : 1 ≤ Json.itemsNesting (fieldsToJson (f :: fs)) := by
        rw [fieldsToJson, Json.itemsNesting, Json.nesting]
        omega
      obtain ⟨budget, rfl⟩ : ∃ n, budget = n + 2 := Nat.exists_eq_add_of_le' (by omega)
      rw [toJson, ofJson?_record, fieldsOfJson?_toJson (f :: fs) budget hv (by omega)]
      rfl

theorem itemsOfJson?_toJson (xs : List Value) (budget : Nat) (hxs : itemsInRange xs = true)
    (hbudget : Json.itemsNesting (itemsToJson xs) ≤ budget) :
    (itemsToJson xs).mapM (ofJson? budget false) = some xs := by
  match xs with
  | [] => rfl
  | x :: xs =>
    rw [itemsInRange, Bool.and_eq_true] at hxs
    rw [itemsToJson, Json.itemsNesting, Nat.max_le] at hbudget
    rw [itemsToJson, List.mapM_cons, ofJson?_toJson x budget hxs.1 hbudget.1,
      itemsOfJson?_toJson xs budget hxs.2 hbudget.2]
    rfl

theorem fieldsOfJson?_toJson (fs : List (String × Value)) (budget : Nat)
    (hfs : fieldsInRange fs = true)
    (hbudget : Json.itemsNesting (fieldsToJson fs) ≤ budget + 1) :
    (fieldsToJson fs).mapM (fieldOfJson? budget) = some fs := by
  match fs with
  | [] => rfl
  | (name, x) :: fs =>
    rw [fieldsInRange, Bool.and_eq_true] at hfs
    rw [fieldsToJson, Json.itemsNesting, Nat.max_le] at hbudget
    have hx : x.toJson.nesting ≤ budget := by
      have hfield := hbudget.1
      simp only [Json.nesting, Json.itemsNesting] at hfield
      omega
    rw [fieldsToJson, List.mapM_cons, fieldOfJson?, ofJson?_toJson x budget hfs.1 hx,
      fieldsOfJson?_toJson fs budget hfs.2 hbudget.2]
    rfl

end

end Value

end TaggedPayload
