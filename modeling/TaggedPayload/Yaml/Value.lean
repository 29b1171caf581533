import TaggedPayload.Text.Decimal
import TaggedPayload.Text.Number
import TaggedPayload.Yaml.Document

/-!
# YAML values

The values that nodes stand for. A scalar in quotes or in a block is a string. A plain one is null,
a truth value, an integer or a float if it is written like one, and otherwise a string; digits
behind a leading zero are a string. Integers have sixty-four bits: one that needs more but not more
than twice as many is a fault, and beyond that the text is a float. The tags of the basic kinds ask
for just that kind, a tag of the text's own stays with the value, and any other makes a string. A
mapping names no key twice. An alias is a copy of its node, and too many copies are a fault.
-/

set_option autoImplicit false

namespace TaggedPayload.Yaml

inductive Value
  | null
  | bool (b : Bool)
  | integer (i : Int)
  | float (f : Float)
  | string (s : String)
  | sequence (items : List Value)
  | mapping (entries : List (Value × Value))
  | tagged (name : String) (content : Value)

/-! ## Plain scalars -/

def withoutSign (cs : List Char) : List Char :=
  match cs with
  | '-' :: r => r
  | '+' :: r => r
  | r => r

/-- Digits behind a leading zero, with or without a sign. -/
def isZeroPadded (cs : List Char) : Bool :=
  match withoutSign cs with
  | '0' :: d :: r => (d :: r).all Text.Decimal.isDigit
  | _ => false

def marked? : List Char → Option (Nat × List Char)
  | '0' :: 'x' :: r => some (16, r)
  | '0' :: 'o' :: r => some (8, r)
  | '0' :: 'b' :: r => some (2, r)
  | _ => none

def digitsValue? (radix : Nat) (ds : List Char) : Option Nat :=
  if ds.isEmpty then none
  else
    ds.foldl (fun n c => n.bind fun n => (Text.digitValue? radix c).map (n * radix + ·)) (some 0)

/-- A number without sign: marked digits, or decimal ones. -/
def magnitude? (cs : List Char) : Option Nat :=
  match (marked? cs).bind fun (radix, ds) => digitsValue? radix ds with
  | some n => some n
  | none => digitsValue? 10 cs

def unsigned? (cs : List Char) : Option Nat :=
  if isZeroPadded cs then none
  else
    match cs with
    | '+' :: r => magnitude? r
    | r => magnitude? r

def integer? (cs : List Char) : Option Int :=
  match cs with
  | '-' :: r => if isZeroPadded r then none else (magnitude? r).map fun n => -(n : Int)
  | cs => (unsigned? cs).map Int.ofNat

def bool? (s : String) : Option Bool :=
  if s ∈ ["true", "True", "TRUE"] then some true
  else if s ∈ ["false", "False", "FALSE"] then some false
  else none

def float? (s : String) : Option Float :=
  if s ∈ [".inf", ".Inf", ".INF", "+.inf", "+.Inf", "+.INF"] then some (1 / 0)
  else if s ∈ ["-.inf", "-.Inf", "-.INF"] then some (-(1 / 0))
  else if s ∈ [".nan", ".NaN", ".NAN"] then some (0 / 0)
  else
    (Text.Decimal.ofText? s.toList).bind fun d => if d.isFinite then some d.toFloat else none

def isNull (s : String) : Bool :=
  s ∈ ["~", "null", "Null", "NULL"]

/-- The integer has at most sixty-four bits. -/
def fits (i : Int) : Bool :=
  -(UInt64.size / 2 : Int) ≤ i && i < UInt64.size

/-- The integer has at most twice as many. -/
def fitsTwice (i : Int) : Bool :=
  -(UInt64.size * UInt64.size / 2 : Int) ≤ i && i < UInt64.size * UInt64.size

def floatOrString (s : String) : Value :=
  if isZeroPadded s.toList then .string s else (float? s).elim (.string s) .float

/-- The value of a plain scalar; none for an integer of too many bits. -/
def plainValue (s : String) : Option Value :=
  if s.isEmpty || isNull s then some .null
  else
    match bool? s, integer? s.toList with
    | some b, _ => some (.bool b)
    | none, some i =>
      if fits i then some (.integer i)
      else if fitsTwice i then none
      else some (floatOrString s)
    | none, none => some (floatOrString s)

def bareValue (s : String) (style : ScalarStyle) : Option Value :=
  if style = .plain then plainValue s else some (.string s)

/-- The value of a scalar of a kind that its tag names; none when it is not written like one. -/
def kindValue (tag : NodeTag) (s : String) (style : ScalarStyle) : Option Value :=
  if tag = .bool then (bool? s).map .bool
  else if tag = .integer then ((integer? s.toList).filter fits).map .integer
  else if tag = .float then (float? s).map .float
  else if tag = .null then if isNull s then some .null else none
  else if tag.isOwn then bareValue s style
  else some (.string s)

namespace Value

/-! ## Comparison -/

/-- Two floats are one key: equal, or both no number. -/
def sameFloat (f g : Float) : Bool :=
  f == g || (f.isNaN && g.isNaN)

/-- The name of a tag without an exclamation mark in front. -/
def bareName (name : String) : String :=
  match name.toList with
  | '!' :: c :: cs => String.ofList (c :: cs)
  | _ => name

mutual

/-- Equality of values; the order of a mapping's entries does not count. -/
def same : Value → Value → Bool
  | null, null => true
  | bool a, bool b => a == b
  | integer i, integer j => i == j
  | float f, float g => sameFloat f g
  | string s, string t => s == t
  | sequence xs, sequence ys => sameItems xs ys
  | mapping es, mapping fs => es.length == fs.length && entriesIn es fs
  | tagged t x, tagged u y => bareName t == bareName u && same x y
  | _, _ => false

def sameItems : List Value → List Value → Bool
  | [], [] => true
  | x :: xs, y :: ys => same x y && sameItems xs ys
  | _, _ => false

def entriesIn : List (Value × Value) → List (Value × Value) → Bool
  | [], _ => true
  | (k, x) :: es, fs => fs.any (fun f => same k f.1 && same x f.2) && entriesIn es fs

end

def keysDiffer : List (Value × Value) → Bool
  | [] => true
  | (k, _) :: es => !es.any (fun e => same k e.1) && keysDiffer es

/-! ## Values of nodes -/

/-- Reading of a document, with the number of aliases that may still be followed; none when the
document has a fault of the kinds above. -/
abbrev Reading := StateT Nat Option

def follow (d : Document) (n : Node) : Reading Node := do
  if let .alias _ := n then
    let left ← get
    if left = 0 then failure
    set (left - 1)
  return d.resolve n

/-- Puts a tag of the text's own on a value; the tag has a name. -/
def withTag (tag : Option NodeTag) (v : Value) : Reading Value :=
  match tag.bind NodeTag.ownName? with
  | none => return v
  | some name => if name.isEmpty then failure else return tagged name v

def ofScalar (s : String) (style : ScalarStyle) (tag : Option NodeTag) : Reading Value :=
  match tag.filter (·.ownName?.isNone) with
  | some kind => fun left => (kindValue kind s style).map (·, left)
  | none => do
    let v ← fun left => (bareValue s style).map (·, left)
    withTag tag v

/-- The value of a node inside which `depth` collections may stand. -/
def ofNode (d : Document) : (depth : Nat) → Node → Reading Value
  | 0, n => do
    match ← follow d n with
    | .scalar s style tag => ofScalar s style tag
    | _ => failure
  | depth + 1, n => do
    match ← follow d n with
    | .scalar s style tag => ofScalar s style tag
    | .sequence xs tag => do withTag tag (sequence (← xs.mapM (ofNode d depth)))
    | .mapping es tag => do
      let es ← es.mapM fun e => return (← ofNode d depth e.1, ← ofNode d depth e.2)
      if keysDiffer es then withTag tag (mapping es) else failure
    | .alias _ => failure

def ofDocument? (d : Document) : Option Value :=
  (ofNode d Node.nestingLimit d.root).run' d.aliasLimit

def untagged : Value → Value
  | tagged _ v => untagged v
  | v => v

def string? (v : Value) : Option String :=
  match v.untagged with
  | string s => some s
  | _ => none

end Value

end TaggedPayload.Yaml
