import TaggedPayload.Json.Reader
import TaggedPayload.Json.Writer
import TaggedPayload.Value.Basic

/-!
# Values as JSON

A value is an object of its type and its content; a record's content is a list of pairs. Reading
takes the two members in either order, ignores others, and takes a pair of type and content as
well. Content that comes before its type has to be kept until the type is known: integers are
then refused. The type in an object may also be given as an object of its name and null.
-/

set_option autoImplicit false

namespace TaggedPayload

inductive Value.Sort
  | uint
  | int
  | bool
  | bytes
  | text
  | key
  | array
  | record
  | null
deriving DecidableEq, Repr

namespace Value.Sort

def name : Value.Sort → String
  | uint => "uint"
  | int => "int"
  | bool => "bool"
  | bytes => "bytes"
  | text => "str"
  | key => "pubkey"
  | array => "array"
  | record => "tuple"
  | null => "null"

def all : List Value.Sort :=
  [uint, int, bool, bytes, text, key, array, record, null]

def ofName? (s : String) : Option Value.Sort :=
  all.find? (·.name == s)

/-- Stands for no content: null, or inside kept content also an empty object. -/
def isUnit (kept : Bool) : Json → Bool
  | .null => true
  | .object [] => kept
  | _ => false

/-- Reads a type: a name, or an object of a name and no content, whose text may nest `budget`
containers. As the first of a pair it is a name, or inside kept content also its place among all
types. -/
def ofJson? (budget : Nat) (kept pair : Bool) : Json → Option Value.Sort
  | .string s => ofName? s
  | .integer false n => if pair && kept then all[n]? else none
  | .object [(s, x)] =>
    if !pair && (kept || budget != 0) && isUnit kept x then ofName? s else none
  | _ => none

end Value.Sort

namespace Value

def uintBound : Nat := UInt64.size * UInt64.size

/-- Signed numbers are at least its negative and below it. -/
def intBound : Nat := uintBound / 2

def typed (s : Value.Sort) (content : Json) : Json :=
  .object [("type", .string s.name), ("value", content)]

mutual

def toJson : Value → Json
  | uint n => typed .uint (.nat n)
  | int i => typed .int (.int i)
  | bool b => typed .bool (.bool b)
  | bytes bs => typed .bytes (.array (bs.map fun b => .nat b.toNat))
  | text s => typed .text (.string s)
  | key s => typed .key (.string s)
  | array xs => typed .array (.array (itemsToJson xs))
  | record fs => typed .record (.array (fieldsToJson fs))
  | null => .object [("type", .string Value.Sort.null.name)]

def itemsToJson : List Value → List Json
  | [] => []
  | x :: xs => toJson x :: itemsToJson xs

def fieldsToJson : List (String × Value) → List Json
  | [] => []
  | (name, x) :: xs => .array [.string name, toJson x] :: fieldsToJson xs

end

structure Shape where
  sort : Json
  content : Option Json
  /-- The content comes before the type. -/
  early : Bool
  pair : Bool

/-- The members `type` and `value`, each at most once; others do not count. -/
def shape? : Json → Option Shape
  | .object ms =>
    match ms.filter fun m => m.1 == "type" || m.1 == "value" with
    | [("type", s)] => some ⟨s, none, false, false⟩
    | [("type", s), ("value", v)] => some ⟨s, some v, false, false⟩
    | [("value", v), ("type", s)] => some ⟨s, some v, true, false⟩
    | _ => none
  | .array [s, v] => some ⟨s, some v, false, true⟩
  | _ => none

def byteOfJson? : Json → Option UInt8
  | .integer false n => if n < 256 then some (UInt8.ofNat n) else none
  | _ => none

def uintOfJson? : Json → Option Value
  | .integer false n => if n < uintBound then some (uint n) else none
  | _ => none

def intOfJson? : Json → Option Value
  | .integer false n => if n < intBound then some (int n) else none
  | .integer true n => if n ≤ intBound then some (int (-n)) else none
  | _ => none

/-- Reads a value whose text may nest `budget` containers. -/
def ofJson? : (budget : Nat) → (kept : Bool) → Json → Option Value
  | 0, _, _ => none
  | budget + 1, kept, j =>
    match shape? j with
    | none => none
    | some sh =>
      match Value.Sort.ofJson? budget kept sh.pair sh.sort, sh.content with
      | none, _ => none
      | some .null, none => some null
      | some _, none => none
      | some sort, some v =>
        let kept := kept || sh.early
        if sh.early && !v.canBeKept budget then none
        else
          match sort, v with
          | .uint, v => if kept then none else uintOfJson? v
          | .int, v => if kept then none else intOfJson? v
          | .bool, .bool b => some (bool b)
          | .bytes, .array xs => if budget = 0 then none else (xs.mapM byteOfJson?).map bytes
          | .text, .string s => some (text s)
          | .key, .string s => some (key s)
          | .array, .array xs =>
            match budget with
            | 0 => none
            | b + 1 => (xs.mapM (ofJson? b kept)).map array
          | .record, .array xs =>
            match budget with
            | b + 2 =>
              (xs.mapM fun
                | Json.array [.string name, x] => (ofJson? b kept x).map (name, ·)
                | _ => none).map record
            | _ => if budget = 1 ∧ xs.isEmpty then some (record []) else none
          | .null, .null => some null
          | _, _ => none

def ofJson (j : Json) : Except JsonFault Value :=
  match ofJson? Json.nestingLimit false j with
  | some v => .ok v
  | none => .error .malformed

end Value

end TaggedPayload
