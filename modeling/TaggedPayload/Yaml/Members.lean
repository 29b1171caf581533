import TaggedPayload.Yaml.Value

/-!
# Settings in YAML

A text of settings is one document: a mapping of names to values, or nothing at all. The values are
read by the kind that each setting expects, not by how they look: a string takes the text of any
scalar, while numbers and truth values have to be plain or say in their tag what they are.
-/

set_option autoImplicit false

namespace TaggedPayload.Yaml

/-- The one document of a text; a text without any counts as an empty one. -/
def onlyDocument? (s : String) : Option Document :=
  match documents s with
  | ⟨[], false⟩ => some .empty
  | ⟨[d], false⟩ => some d
  | _ => none

namespace Node

def text? : Node → Option String
  | scalar s _ _ => some s
  | _ => none

/-- The text of a scalar that may be of a kind: a plain one, or a literal one with its tag. -/
def textOf? (kind : NodeTag) : Node → Option String
  | scalar s .plain _ => some s
  | scalar s .literal tag => if tag = some kind then some s else none
  | _ => none

def bool? (n : Node) : Option Bool :=
  (n.textOf? .bool).bind Yaml.bool?

def size? (n : Node) : Option Nat :=
  ((n.textOf? .integer).bind fun s => unsigned? s.toList).filter (· < Text.sizeBound)

end Node

namespace Document

/-- The named entries of a mapping, in order, aliases replaced; nothing written counts as an empty
mapping. -/
def membersOf? (d : Document) (n : Node) : Option (List (String × Node)) :=
  match d.resolve n with
  | .mapping es _ => es.mapM fun e => (d.resolve e.1).text?.map (·, d.resolve e.2)
  | .scalar "" .plain _ => some []
  | _ => none

def members? (d : Document) : Option (List (String × Node)) :=
  d.membersOf? d.root

end Document

end TaggedPayload.Yaml
