import TaggedPayload.Json.Number
import TaggedPayload.Text.Number

/-!
# JSON trees

The tree of a JSON text. Integers keep their sign apart from their magnitude, because a negative
zero is no unsigned number; no reader takes other numbers, which keep their literal. A value that
cannot be read whole, such as a string with half a surrogate pair or an object that the text does
not close, keeps the part before the fault: readers go through that part first, since a fault in it
comes earlier in the text.
-/

set_option autoImplicit false

namespace TaggedPayload

inductive Json
  | null
  | bool (b : Bool)
  | integer (negative : Bool) (magnitude : Nat)
  /-- A number with a fraction or an exponent. -/
  | fraction (literal : String)
  | string (s : String)
  | array (items : List Json)
  | object (members : List (String × Json))
  /-- A value that cannot be read whole. -/
  | broken (part : Json)

inductive JsonFault
  /-- Not JSON, or not of the expected shape. -/
  | malformed
  /-- A string of the right shape that a reader of this library refuses. -/
  | refused (message : String)
deriving DecidableEq, Repr

namespace Json

instance : Inhabited Json := ⟨null⟩

/-- How many containers may stand inside one another in a text. -/
def nestingLimit : Nat := 127

def nat (n : Nat) : Json := integer false n

/-- An integer; zero has no sign. -/
def int : Int → Json
  | .ofNat n => integer false n
  | .negSucc n => integer true (n + 1)

mutual

/-- The value can be kept for later: it is whole, at most `budget` containers stand inside one
another, and every number has a finite double. -/
def canBeKept (budget : Nat) : Json → Bool
  | array xs => budget != 0 && itemsCanBeKept (budget - 1) xs
  | object ms => budget != 0 && membersCanBeKept (budget - 1) ms
  | broken _ => false
  | integer _ n => (Scaled.ofLiteral (Text.natText n).toList).isFinite
  | fraction literal => (Scaled.ofLiteral literal.toList).isFinite
  | _ => true

def itemsCanBeKept (budget : Nat) : List Json → Bool
  | [] => true
  | x :: xs => canBeKept budget x && itemsCanBeKept budget xs

def membersCanBeKept (budget : Nat) : List (String × Json) → Bool
  | [] => true
  | (_, x) :: xs => canBeKept budget x && membersCanBeKept budget xs

end

end Json

end TaggedPayload
