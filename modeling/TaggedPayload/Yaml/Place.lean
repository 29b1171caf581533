/-!
# Places in a YAML text

The unread rest of a text together with the index, line and column of its first character. Indices
count octets and columns count characters. A line ends with a line feed, a carriage return, both
together, or one of the three other Unicode line ends; the blanks inside a line are the space and
the tab. What reads a text runs on fuel: every round takes a character at least, so one round more
than there are characters suffices.
-/

set_option autoImplicit false

namespace TaggedPayload.Yaml

structure Place where
  rest : List Char
  /-- How many octets came before. -/
  index : Nat
  line : Nat
  column : Nat
deriving DecidableEq, Repr

def isBlank (c : Char) : Bool :=
  c == ' ' || c == '\t'

def isBreak (c : Char) : Bool :=
  c == '\n' || c == '\r' || c == '\u0085' || c == '\u2028' || c == '\u2029'

def octets (cs : List Char) : Nat :=
  cs.foldr (fun c n => c.utf8Size + n) 0

namespace Place

def start (cs : List Char) : Place :=
  ⟨cs, 0, 0, 0⟩

/-- The place after `n` characters of the line. -/
def skip (p : Place) (n : Nat) : Place :=
  ⟨p.rest.drop n, p.index + octets (p.rest.take n), p.line, p.column + n⟩

def skipBreak (p : Place) : Place :=
  match p.rest with
  | '\r' :: '\n' :: cs => ⟨cs, p.index + 2, p.line + 1, 0⟩
  | c :: cs => ⟨cs, p.index + c.utf8Size, p.line + 1, 0⟩
  | [] => p

/-- The line end at a place, as it counts in a scalar. -/
def breakText (p : Place) : List Char :=
  match p.rest with
  | '\u2028' :: _ => ['\u2028']
  | '\u2029' :: _ => ['\u2029']
  | _ => ['\n']

def ahead (p : Place) (n : Nat) : Option Char :=
  p.rest[n]?

def startsWith (p : Place) (c : Char) : Bool :=
  p.rest.head? == some c

/-- A blank, a line end or the end of the text stands `n` places further on. -/
def gapAt (p : Place) (n : Nat) : Bool :=
  match p.ahead n with
  | none => true
  | some c => isBlank c || isBreak c

/-- A line of three equal marks that separates documents. -/
def isSeparator (p : Place) (mark : Char) : Bool :=
  p.column == 0 && p.rest.take 3 == [mark, mark, mark] && p.gapAt 3

def isDocumentEdge (p : Place) : Bool :=
  p.isSeparator '-' || p.isSeparator '.'

end Place

end TaggedPayload.Yaml
