import TaggedPayload.Json.Reader
import TaggedPayload.Json.Writer
import TaggedPayload.Text.Number

/-!
# Settings in JSON

A text of settings is an object of names and values, or a list of the values in their order, from
which values at the end may be missing.
-/

set_option autoImplicit false

namespace TaggedPayload.Json

def size? : Json → Option Nat
  | integer false n => if n < Text.sizeBound then some n else none
  | _ => none

def bool? : Json → Option Bool
  | bool b => some b
  | _ => none

def string? : Json → Option String
  | string s => some s
  | _ => none

def object? : Json → Option (List (String × Json))
  | object ms => some ms
  | _ => none

/-- Names and values; a list gives its values to the names in their order. -/
def members? (names : List String) : Json → Option (List (String × Json))
  | object ms => some ms
  | array xs => if xs.length ≤ names.length then some (names.zip xs) else none
  | _ => none

end TaggedPayload.Json
