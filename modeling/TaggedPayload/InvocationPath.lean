import TaggedPayload.Text.Number
import TaggedPayload.Text.Segments

/-!
# Invocation paths

Programs invoke programs. A path locates an invocation by its index among its siblings at each
depth, from the outermost down, and is written with points between the indices. The empty path is
the empty text.
-/

set_option autoImplicit false

namespace TaggedPayload

structure InvocationPath where
  indices : List Nat
deriving DecidableEq, Repr

namespace InvocationPath

def root (index : Nat) : InvocationPath := ⟨[index]⟩

def child (p : InvocationPath) (index : Nat) : InvocationPath := ⟨p.indices ++ [index]⟩

def depth (p : InvocationPath) : Nat := p.indices.length

/-- `p` is `q` or inside it. -/
def isWithin (p q : InvocationPath) : Bool := q.indices.isPrefixOf p.indices

def text (p : InvocationPath) : String :=
  String.ofList (Text.joined '.' (p.indices.map Text.decimal))

/-- Reads a path; the first segment that is no index is reported. -/
def ofText (s : String) : Except Text.NumberFault InvocationPath :=
  match s.toList with
  | [] => .ok ⟨[]⟩
  | cs => ((Text.segments '.' cs).mapM Text.readSize).map fun is => ⟨is⟩

end InvocationPath

end TaggedPayload
