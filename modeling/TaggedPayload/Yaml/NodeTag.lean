import TaggedPayload.Text.Number
import TaggedPayload.Text.Utf8
import TaggedPayload.Yaml.Place

/-!
# Tags of YAML nodes

A tag in front of a node says what the node stands for. It is written as a handle and a suffix, or
whole between angle brackets; directives say which base a handle is short for. The suffix is a URI
in which an escape gives an octet, and the escapes of one character stand together. A tag of the
text's own starts with an exclamation mark.
-/

set_option autoImplicit false

namespace TaggedPayload.Yaml

/-- A whole tag. Octets behind a zero octet do not count. -/
structure NodeTag where
  octets : Bytes
deriving DecidableEq, Repr

namespace NodeTag

def sharedBase : String := "tag:yaml.org,2002:"

def shared (name : String) : NodeTag := ⟨Text.utf8Of (sharedBase ++ name)⟩

def null : NodeTag := shared "null"

def bool : NodeTag := shared "bool"

def integer : NodeTag := shared "int"

def float : NodeTag := shared "float"

/-- The tag with which a text only says that a node has one. -/
def unspecific : NodeTag := ⟨Text.utf8Of "!"⟩

/-- The tag is of the text's own. -/
def isOwn (t : NodeTag) : Bool :=
  t.octets.head? == some 0x21

def ownName? (t : NodeTag) : Option String :=
  if t.isOwn then (Text.readUtf8 (t.octets.drop 1)).toOption else none

end NodeTag

/-- A tag as it is written; a whole tag has no handle. -/
structure TagMark where
  handle : String
  suffix : Bytes
deriving DecidableEq, Repr

/-- What handles are short for. -/
abbrev TagBases := List (String × Bytes)

namespace TagBases

/-- The handles that need no directive. -/
def usual : TagBases :=
  [("!", Text.utf8Of "!"), ("!!", Text.utf8Of NodeTag.sharedBase)]

def tag? (bases : TagBases) (m : TagMark) : Option NodeTag :=
  if m.handle.isEmpty then some ⟨m.suffix⟩
  else (bases.lookup m.handle).map fun base => ⟨base ++ m.suffix⟩

end TagBases

/-! ## URIs -/

/-- Characters of the names of anchors, handles and directives. -/
def isNameChar (c : Char) : Bool :=
  c.isAlphanum || c == '_' || c == '-'

/-- Characters of a URI; three of them only where brackets or the end of the line close it. -/
def isUriChar (closed : Bool) (c : Char) : Bool :=
  isNameChar c ||
    c ∈ [';', '/', '?', ':', '@', '&', '=', '+', '$', '.', '%', '!', '~', '*', '\'', '(', ')'] ||
    (closed && c ∈ [',', '[', ']'])

def escapedOctet? : List Char → Option (UInt8 × List Char)
  | '%' :: a :: b :: cs =>
    (Text.digitValue? 16 a).bind fun x =>
      (Text.digitValue? 16 b).map fun y => (UInt8.ofNat (x * 16 + y), cs)
  | _ => none

/-- How many octets follow the first octet of a character. -/
def followers? (b : UInt8) : Option Nat :=
  if b < 0x80 then some 0
  else if b < 0xC0 then none
  else if b < 0xE0 then some 1
  else if b < 0xF0 then some 2
  else if b < 0xF8 then some 3
  else none

/-- The escapes of `n` octets that are not the first of their character. -/
def escapedFollowers? : (n : Nat) → List Char → Option (Bytes × List Char)
  | 0, cs => some ([], cs)
  | n + 1, cs =>
    (escapedOctet? cs).bind fun (b, r) =>
      if !Text.Utf8.continues b then none
      else (escapedFollowers? n r).map fun (bs, r) => (b :: bs, r)

def escapedChar? (cs : List Char) : Option (Bytes × List Char) :=
  (escapedOctet? cs).bind fun (b, r) =>
    (followers? b).bind fun n => (escapedFollowers? n r).map fun (bs, r) => (b :: bs, r)

def uri (closed : Bool) : (fuel : Nat) → List Char → Option (Bytes × List Char)
  | 0, _ => none
  | _ + 1, [] => some ([], [])
  | fuel + 1, c :: cs =>
    if !isUriChar closed c then some ([], c :: cs)
    else
      (if c = '%' then escapedChar? (c :: cs) else some (Text.utf8 [c], cs)).bind fun (bs, r) =>
        (uri closed fuel r).map fun (us, r) => (bs ++ us, r)

/-- A URI of at least one octet. -/
def uri? (closed : Bool) (cs : List Char) : Option (Bytes × List Char) :=
  (uri closed (cs.length + 1) cs).filter fun u => !u.1.isEmpty

def untilZero (bs : Bytes) : Bytes :=
  bs.takeWhile (· != 0)

/-! ## Marks and directives -/

/-- A name behind an exclamation mark; a second mark makes it a handle. -/
def tagName (cs : List Char) : (List Char × Bool) × List Char :=
  match cs.dropWhile isNameChar with
  | '!' :: r => ((cs.takeWhile isNameChar, true), r)
  | r => ((cs.takeWhile isNameChar, false), r)

def tagMark? : List Char → Option (TagMark × List Char)
  | '!' :: '<' :: cs =>
    match uri? true cs with
    | some (us, '>' :: r) => some (⟨"", untilZero us⟩, r)
    | _ => none
  | '!' :: cs =>
    match tagName cs with
    | ((name, true), r) =>
      (uri? false r).map fun (us, r) =>
        (⟨String.ofList ('!' :: name ++ ['!']), untilZero us⟩, r)
    | ((name, false), r) =>
      (uri false (r.length + 1) r).map fun (us, r) =>
        match untilZero (Text.utf8 name ++ us) with
        | [] => (⟨"", NodeTag.unspecific.octets⟩, r)
        | suffix => (⟨"!", suffix⟩, r)
  | _ => none

def tagDirective? (cs : List Char) : Option ((String × Bytes) × List Char) :=
  match cs.dropWhile isBlank with
  | '!' :: cs =>
    match tagName cs with
    | ((name, closed), r) =>
      if (!closed && !name.isEmpty) || !r.head?.any isBlank then none
      else
        (uri? true (r.dropWhile isBlank)).bind fun (us, r) =>
          if r.head?.all fun c => isBlank c || isBreak c then
            some ((String.ofList ('!' :: name ++ (if closed then ['!'] else [])), untilZero us), r)
          else none
  | _ => none

end TaggedPayload.Yaml
