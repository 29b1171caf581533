import TaggedPayload.Yaml.Node

/-!
# Documents of a YAML text

The tokens of a text make up documents, each of one node. The first document may start without a
mark; every later one starts with three dashes. A fault ends the stream; the documents before it
stand. An anchor names the node behind it from where that node starts, up to the end of the
document.
-/

set_option autoImplicit false

namespace TaggedPayload.Yaml

structure Composer where
  tokens : List Token
  bases : TagBases
  /-- The number of the node that each anchor names. -/
  names : List (String × Nat)
  targets : List Target
  /-- How many parts of the document have started or ended. -/
  parts : Nat

namespace Composer

def drop (c : Composer) : Composer :=
  { c with tokens := c.tokens.drop 1 }

def part (c : Composer) : Composer :=
  { c with parts := c.parts + 1 }

def skipNode (c : Composer) : Node × Composer :=
  (.empty, c.part)

/-- Gives an anchor to the node that starts next: its number is how many names there are. -/
def nameNext (c : Composer) (anchor : String) : Composer :=
  { c with names := (anchor, c.names.length) :: c.names.filter (·.1 != anchor) }

def keep (c : Composer) (number start : Nat) (n : Node) : Composer :=
  { c with targets := ⟨number, start, n⟩ :: c.targets }

/-- The anchor and the tag in front of a node, in either order. -/
def properties (c : Composer) : Option String × Option TagMark × Composer :=
  match c.tokens with
  | .anchor a :: .tag t :: ts => (some a, some t, { c with tokens := ts })
  | .tag t :: .anchor a :: ts => (some a, some t, { c with tokens := ts })
  | .anchor a :: ts => (some a, none, { c with tokens := ts })
  | .tag t :: ts => (none, some t, { c with tokens := ts })
  | _ => (none, none, c)

def sequenceOf (tag : Option NodeTag) (items : Option (List Node × Composer)) :
    Option (Node × Composer) :=
  items.map fun (xs, c) => (.sequence xs tag, c.part)

def mappingOf (tag : Option NodeTag) (entries : Option (List (Node × Node) × Composer)) :
    Option (Node × Composer) :=
  entries.map fun (es, c) => (.mapping es tag, c.part)

/-- The tag of a scalar: an unspecific one counts as none. -/
def scalarTag (tag : Option NodeTag) : Option NodeTag :=
  tag.filter (· != .unspecific)

end Composer

/-- Tokens before which the content of a block collection is left out. -/
def Token.endsBlockContent : Token → Bool
  | key => true
  | value => true
  | blockEnd => true
  | _ => false

def Token.endsFlowValue (close : Token) : Token → Bool
  | flowEntry => true
  | t => t == close

def Token.endsFlowKey (close : Token) : Token → Bool
  | value => true
  | t => t.endsFlowValue close

namespace Composer

mutual

def node : (fuel : Nat) → (block indentless : Bool) → Composer → Option (Node × Composer)
  | 0, _, _, _ => none
  | fuel + 1, block, indentless, c =>
    match c.tokens with
    | .alias name :: ts =>
      (c.names.lookup name).map fun number => (.alias number, { c with tokens := ts }.part)
    | _ =>
      let (anchor, mark, inner) := c.properties
      match mark.mapM inner.bases.tag? with
      | none => none
      | some tag =>
        match anchor with
        | none => content fuel block indentless mark.isSome tag inner
        | some a =>
          match content fuel block indentless true tag (inner.nameNext a) with
          | some (n, d) => some (n, d.keep inner.names.length inner.parts n)
          | none => none

/-- A node without its anchor and tag; behind these the node may be empty. -/
def content : (fuel : Nat) → (block indentless marked : Bool) → (tag : Option NodeTag) →
    Composer → Option (Node × Composer)
  | 0, _, _, _, _, _ => none
  | fuel + 1, block, indentless, marked, tag, c =>
    match c.tokens with
    | [] => none
    | t :: _ =>
      match t with
      | .scalar text style => some (.scalar text style (scalarTag tag), c.drop.part)
      | .flowSequenceStart => sequenceOf tag (flowItems fuel [] c.drop.part)
      | .flowMappingStart => mappingOf tag (flowEntries fuel [] c.drop.part)
      | _ =>
        if indentless && t == .blockEntry then sequenceOf tag (indentlessItems fuel [] c.part)
        else if block && t == .blockSequenceStart then
          sequenceOf tag (blockItems fuel [] c.drop.part)
        else if block && t == .blockMappingStart then
          mappingOf tag (blockEntries fuel [] c.drop.part)
        else if marked then some (.scalar "" .plain tag, c.part)
        else none

/-- A node, or the empty one before a token that ends its place. -/
def nodeUnless : (fuel : Nat) → (stop : Token → Bool) → (block indentless : Bool) → Composer →
    Option (Node × Composer)
  | 0, _, _, _, _ => none
  | fuel + 1, stop, block, indentless, c =>
    match c.tokens with
    | [] => none
    | t :: _ => if stop t then some c.skipNode else node fuel block indentless c

def blockItems : (fuel : Nat) → (done : List Node) → Composer → Option (List Node × Composer)
  | 0, _, _ => none
  | fuel + 1, done, c =>
    match c.tokens with
    | .blockEntry :: _ =>
      match nodeUnless fuel (fun t => t == .blockEntry || t == .blockEnd) true false c.drop with
      | some (x, c) => blockItems fuel (x :: done) c
      | none => none
    | .blockEnd :: _ => some (done.reverse, c.drop)
    | _ => none

/-- The items of a block sequence at the indentation of the mapping around it. -/
def indentlessItems : (fuel : Nat) → (done : List Node) → Composer → Option (List Node × Composer)
  | 0, _, _ => none
  | fuel + 1, done, c =>
    match c.tokens with
    | [] => none
    | .blockEntry :: _ =>
      match nodeUnless fuel (fun t => t == .blockEntry || t.endsBlockContent) true false c.drop with
      | some (x, c) => indentlessItems fuel (x :: done) c
      | none => none
    | _ => some (done.reverse, c)

def blockEntries : (fuel : Nat) → (done : List (Node × Node)) → Composer →
    Option (List (Node × Node) × Composer)
  | 0, _, _ => none
  | fuel + 1, done, c =>
    match c.tokens with
    | .blockEnd :: _ => some (done.reverse, c.drop)
    | .key :: _ =>
      match nodeUnless fuel Token.endsBlockContent true true c.drop with
      | some (k, c) =>
        match blockValue fuel c with
        | some (x, c) => blockEntries fuel ((k, x) :: done) c
        | none => none
      | none => none
    | _ => none

/-- The value of a block entry, which may be left out with its colon. -/
def blockValue : (fuel : Nat) → Composer → Option (Node × Composer)
  | 0, _ => none
  | fuel + 1, c =>
    match c.tokens with
    | [] => none
    | .value :: _ => nodeUnless fuel Token.endsBlockContent true true c.drop
    | _ => some c.skipNode

def flowItems : (fuel : Nat) → (done : List Node) → Composer → Option (List Node × Composer)
  | 0, _, _ => none
  | fuel + 1, done, c =>
    match c.tokens with
    | [] => none
    | .flowSequenceEnd :: _ => some (done.reverse, c.drop)
    | t :: _ =>
      match if done.isEmpty then some c else if t == .flowEntry then some c.drop else none with
      | none => none
      | some c =>
        match c.tokens with
        | [] => none
        | .flowSequenceEnd :: _ => some (done.reverse, c.drop)
        | .key :: _ =>
          match flowPair fuel c.drop with
          | some (x, c) => flowItems fuel (x :: done) c
          | none => none
        | _ =>
          match node fuel false false c with
          | some (x, c) => flowItems fuel (x :: done) c
          | none => none

/-- An item that is a mapping of one entry. -/
def flowPair : (fuel : Nat) → Composer → Option (Node × Composer)
  | 0, _ => none
  | fuel + 1, c =>
    match c.tokens with
    | [] => none
    | t :: _ =>
      let key :=
        if t.endsFlowKey .flowSequenceEnd then some c.part.drop.skipNode
        else node fuel false false c.part
      match key with
      | none => none
      | some (k, c) =>
        match flowValue fuel .flowSequenceEnd c with
        | some (x, c) => some (.mapping [(k, x)] none, c.part)
        | none => none

def flowValue : (fuel : Nat) → (close : Token) → Composer → Option (Node × Composer)
  | 0, _, _ => none
  | fuel + 1, close, c =>
    match c.tokens with
    | [] => none
    | .value :: _ => nodeUnless fuel (Token.endsFlowValue close) false false c.drop
    | _ => some c.skipNode

def flowEntries : (fuel : Nat) → (done : List (Node × Node)) → Composer →
    Option (List (Node × Node) × Composer)
  | 0, _, _ => none
  | fuel + 1, done, c =>
    match c.tokens with
    | [] => none
    | .flowMappingEnd :: _ => some (done.reverse, c.drop)
    | t :: _ =>
      match if done.isEmpty then some c else if t == .flowEntry then some c.drop else none with
      | none => none
      | some c =>
        match c.tokens with
        | [] => none
        | .flowMappingEnd :: _ => some (done.reverse, c.drop)
        | .key :: _ =>
          match nodeUnless fuel (Token.endsFlowKey .flowMappingEnd) false false c.drop with
          | none => none
          | some (k, c) =>
            match flowValue fuel .flowMappingEnd c with
            | some (x, c) => flowEntries fuel ((k, x) :: done) c
            | none => none
        | _ =>
          match node fuel false false c with
          | some (k, c) => flowEntries fuel ((k, .empty) :: done) c.part
          | none => none

end

end Composer

/-- The documents of a text: those before the first fault, and whether there is one. -/
structure Documents where
  all : List Document
  faulty : Bool

structure Directives where
  hasVersion : Bool
  bases : TagBases

/-- Reads the directives in front: one version at most, and a known one, and one base at most for
each handle; then the tokens after them. -/
def directives? : Directives → List Token → Option (TagBases × List Token)
  | ds, .version major minor :: ts =>
    if !ds.hasVersion && major == 1 && (minor == 1 || minor == 2) then
      directives? { ds with hasVersion := true } ts
    else none
  | ds, .tagBase handle base :: ts =>
    if (ds.bases.lookup handle).isSome then none
    else directives? { ds with bases := (handle, base) :: ds.bases } ts
  | ds, ts => some (ds.bases ++ TagBases.usual, ts)

def Token.opensDocument : Token → Bool
  | version .. => true
  | tagBase .. => true
  | documentStart => true
  | _ => false

/-- Tokens before which a marked document is empty. -/
def Token.endsDocument : Token → Bool
  | documentEnd => true
  | streamEnd => true
  | t => t.opensDocument

/-- The document whose node starts with the first token, and the tokens after it. Of four rules in a
row at least one takes a token, so the fuel is never used up. -/
def rootedDocument (bases : TagBases) (ts : List Token) : Option (Document × List Token) :=
  (Composer.node (4 * ts.length + 8) true false ⟨ts, bases, [], [], 0⟩).map fun (n, c) =>
    (⟨n, c.targets, c.parts⟩, c.tokens)

def markedDocument (ts : List Token) : Option (Document × List Token) :=
  match directives? ⟨false, []⟩ ts with
  | some (bases, .documentStart :: t :: rest) =>
    if t.endsDocument then some (.empty, t :: rest) else rootedDocument bases (t :: rest)
  | _ => none

inductive Continuation
  | document (d : Document) (rest : List Token)
  | finished
  | faulty

/-- The next document. It is there once the token after it is. -/
def continuation (first : Bool) (ts : List Token) : Continuation :=
  match if first then ts else ts.dropWhile (· == .documentEnd) with
  | [] => .faulty
  | .streamEnd :: _ => .finished
  | t :: ts =>
    let bare := first && !t.opensDocument
    match if bare then rootedDocument .usual (t :: ts) else markedDocument (t :: ts) with
    | some (d, .documentEnd :: rest) => .document d rest
    | some (d, t :: rest) => .document d (t :: rest)
    | _ => .faulty

def documentsOf : (fuel : Nat) → (first : Bool) → List Token → Documents
  | 0, _, _ => ⟨[], true⟩
  | fuel + 1, first, ts =>
    match continuation first ts with
    | .faulty => ⟨[], true⟩
    | .finished => ⟨[], false⟩
    | .document d ts =>
      let later := documentsOf fuel false ts
      ⟨d :: later.all, later.faulty⟩

def documents (s : String) : Documents :=
  let ts := tokens s.toList
  documentsOf (ts.length + 1) true ts

end TaggedPayload.Yaml
