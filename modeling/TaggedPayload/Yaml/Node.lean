import TaggedPayload.Yaml.Token

/-!
# YAML nodes

The tree of a document before its scalars are resolved: scalars keep their text and how they were
written, and every node keeps its tag. An alias holds the number of the node it stands for; those
nodes are kept beside the tree.
-/

set_option autoImplicit false

namespace TaggedPayload.Yaml

inductive Node
  | scalar (text : String) (style : ScalarStyle) (tag : Option NodeTag)
  | sequence (items : List Node) (tag : Option NodeTag)
  | mapping (entries : List (Node × Node)) (tag : Option NodeTag)
  | alias (number : Nat)

namespace Node

/-- The scalar that is written as nothing. -/
def empty : Node := scalar "" .plain none

instance : Inhabited Node := ⟨empty⟩

/-- How many collections may stand inside one another. -/
def nestingLimit : Nat := 128

end Node

/-- A node that an anchor names. -/
structure Target where
  number : Nat
  /-- How many parts of the document started before. -/
  start : Nat
  node : Node

structure Document where
  root : Node
  targets : List Target
  /-- How many parts it has: a scalar or an alias is one, a collection has its start and its end. -/
  parts : Nat

namespace Document

def empty : Document := ⟨.empty, [], 1⟩

def laterTarget (t : Option Target) (u : Target) : Option Target :=
  match t with
  | none => some u
  | some v => some (if v.start ≤ u.start then u else v)

/-- The node of a number: of several, the one that starts last. -/
def target? (d : Document) (number : Nat) : Option Node :=
  ((d.targets.filter (·.number == number)).foldl laterTarget none).map (·.node)

def resolve (d : Document) : Node → Node
  | .alias number => (d.target? number).getD .empty
  | n => n

/-- How often aliases may be followed while a document is read. -/
def aliasLimit (d : Document) : Nat := 100 * d.parts

end Document

end TaggedPayload.Yaml
