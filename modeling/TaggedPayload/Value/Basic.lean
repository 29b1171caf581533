import TaggedPayload.AccountKey
import TaggedPayload.Text.Hex

/-!
# Decoded values

What a payload means once it is decoded: a tree of numbers, truth values, bytes, text, keys, lists
and records. A record keeps its fields in order, and a field is looked up by the first entry of its
name.
-/

set_option autoImplicit false

namespace TaggedPayload

inductive Value
  | uint (n : Nat)
  | int (i : Int)
  | bool (b : Bool)
  | bytes (bs : Bytes)
  | text (s : String)
  /-- The text of an account key. -/
  | key (s : String)
  | array (items : List Value)
  | record (fields : List (String × Value))
  | null

namespace Value

instance : Inhabited Value := ⟨null⟩

def ofKey (k : AccountKey) : Value := key k.text

def isNull : Value → Bool
  | null => true
  | _ => false

def asUint? : Value → Option Nat
  | uint n => some n
  | _ => none

def asInt? : Value → Option Int
  | int i => some i
  | _ => none

def asKey? : Value → Option String
  | key s => some s
  | _ => none

/-- The value of a record's first field of that name. -/
def field? (name : String) : Value → Option Value
  | record fields => (fields.find? (·.1 == name)).map (·.2)
  | _ => none

mutual

def same : Value → Value → Bool
  | uint m, uint n => m == n
  | int i, int j => i == j
  | bool a, bool b => a == b
  | bytes a, bytes b => a == b
  | text s, text t => s == t
  | key s, key t => s == t
  | array xs, array ys => sameItems xs ys
  | record xs, record ys => sameFields xs ys
  | null, null => true
  | _, _ => false

def sameItems : List Value → List Value → Bool
  | [], [] => true
  | x :: xs, y :: ys => same x y && sameItems xs ys
  | _, _ => false

def sameFields : List (String × Value) → List (String × Value) → Bool
  | [], [] => true
  | (m, x) :: xs, (n, y) :: ys => m == n && same x y && sameFields xs ys
  | _, _ => false

end

mutual

theorem same_eq_true_iff (v w : Value) : same v w = true ↔ v = w := by
  cases v <;> cases w <;> simp [same, sameItems_eq_true_iff, sameFields_eq_true_iff]

theorem sameItems_eq_true_iff (xs ys : List Value) : sameItems xs ys = true ↔ xs = ys := by
  match xs, ys with
  | [], [] => simp [sameItems]
  | x :: xs, y :: ys => simp [sameItems, same_eq_true_iff x y, sameItems_eq_true_iff xs ys]
  | [], _ :: _ => simp [sameItems]
  | _ :: _, [] => simp [sameItems]

theorem sameFields_eq_true_iff (xs ys : List (String × Value)) :
    sameFields xs ys = true ↔ xs = ys := by
  match xs, ys with
  | [], [] => simp [sameFields]
  | (m, x) :: xs, (n, y) :: ys =>
    simp [sameFields, same_eq_true_iff x y, sameFields_eq_true_iff xs ys]
  | [], _ :: _ => simp [sameFields]
  | _ :: _, [] => simp [sameFields]

end

instance : DecidableEq Value := fun v w => decidable_of_iff _ (same_eq_true_iff v w)

mutual

def display : Value → String
  | uint n => Text.natText n
  | int i => Text.intText i
  | bool true => "true"
  | bool false => "false"
  | bytes bs => Text.markedHex bs
  | text s => s
  | key s => s
  | array xs => "[" ++ ", ".intercalate (displayItems xs) ++ "]"
  | record fs => "\x7b" ++ ", ".intercalate (displayFields fs) ++ "\x7d"
  | null => "null"

def displayItems : List Value → List String
  | [] => []
  | x :: xs => display x :: displayItems xs

def displayFields : List (String × Value) → List String
  | [] => []
  | (name, x) :: xs => (name ++ ": " ++ display x) :: displayFields xs

end

end Value

end TaggedPayload
