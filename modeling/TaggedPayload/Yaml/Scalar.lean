import TaggedPayload.Text.Number
import TaggedPayload.Yaml.Place

/-!
# The text of scalars

A scalar may run over several lines. Blanks around a line end do not count; a single line end
counts as a space, and of several the first is left out. Plain scalars end where a comment, an
indicator or a line of less indentation starts; quoted ones at their quote.
-/

set_option autoImplicit false

namespace TaggedPayload.Yaml

/-- Blanks and line ends between two words of a scalar. -/
structure Gap where
  blanks : List Char
  /-- The first line end. -/
  first : List Char
  /-- The line ends after the first. -/
  more : List Char
  broken : Bool
deriving DecidableEq, Repr

namespace Gap

def empty : Gap := ⟨[], [], [], false⟩

/-- A line end that an escape takes out. -/
def escaped : Gap := ⟨[], [], [], true⟩

/-- What a gap counts as between two words. -/
def text (g : Gap) : List Char :=
  if g.broken then
    if g.first = ['\n'] then (if g.more.isEmpty then [' '] else g.more) else g.first ++ g.more
  else g.blanks

/-- Extends a gap to the next word. In a plain scalar, a tab before the column `least` is no
indentation. -/
def extend (least : Option Nat) : (fuel : Nat) → Gap → Place → Option (Gap × Place)
  | 0, _, _ => none
  | fuel + 1, g, p =>
    match p.rest with
    | [] => some (g, p)
    | c :: _ =>
      if isBlank c then
        if g.broken then
          if c = '\t' ∧ least.any (p.column < ·) then none
          else extend least fuel g (p.skip 1)
        else extend least fuel { g with blanks := g.blanks ++ [c] } (p.skip 1)
      else if isBreak c then
        if g.broken then extend least fuel { g with more := g.more ++ p.breakText } p.skipBreak
        else extend least fuel ⟨[], p.breakText, [], true⟩ p.skipBreak
      else some (g, p)

end Gap

/-! ## Plain scalars -/

def isFlowMark (c : Char) : Bool :=
  c == ',' || c == '[' || c == ']' || c == '{' || c == '}'

/-- The characters of the next word; nothing when a colon stands where it must not. -/
def plainWord (flow : Bool) : List Char → Option (List Char)
  | [] => some []
  | c :: cs =>
    if isBlank c || isBreak c then some []
    else if c = ':' then
      match cs with
      | [] => some []
      | d :: _ =>
        if isBlank d || isBreak d then some []
        else if flow && (isFlowMark d || d == '?') then none
        else (plainWord flow cs).map (c :: ·)
    else if flow && isFlowMark c then some []
    else (plainWord flow cs).map (c :: ·)

/-- The text of a plain scalar, the place after it, and whether a line end came last. -/
def plainScalar (flow : Bool) (least : Nat) :
    (fuel : Nat) → (gap : Gap) → (done : List Char) → Place → Option (List Char × Place × Bool)
  | 0, _, _, _ => none
  | fuel + 1, gap, done, p =>
    if p.isDocumentEdge || p.startsWith '#' then some (done, p, gap.broken)
    else
      match plainWord flow p.rest with
      | none => none
      | some [] => some (done, p, gap.broken)
      | some word =>
        let done := done ++ gap.text ++ word
        let p := p.skip word.length
        match Gap.extend (some least) (p.rest.length + 1) .empty p with
        | none => none
        | some (gap, q) =>
          if q.index = p.index then some (done, p, false)
          else if !flow && q.column < least then some (done, q, gap.broken)
          else plainScalar flow least fuel gap done q

/-! ## Quoted scalars -/

def unescape? : Char → Option Char
  | '0' => some '\x00'
  | 'a' => some '\x07'
  | 'b' => some '\x08'
  | 't' => some '\t'
  | '\t' => some '\t'
  | 'n' => some '\n'
  | 'v' => some '\x0b'
  | 'f' => some '\x0c'
  | 'r' => some '\r'
  | 'e' => some '\x1b'
  | ' ' => some ' '
  | '"' => some '"'
  | '/' => some '/'
  | '\\' => some '\\'
  | 'N' => some '\u0085'
  | '_' => some '\u00a0'
  | 'L' => some '\u2028'
  | 'P' => some '\u2029'
  | _ => none

def escapeWidth? : Char → Option Nat
  | 'x' => some 2
  | 'u' => some 4
  | 'U' => some 8
  | _ => none

def escapedPoint? (digits : List Char) (width : Nat) : Option Char :=
  if digits.length < width then none
  else
    match Text.readDigits 16 UInt32.size 0 digits with
    | .ok n => if n < 0xD800 ∨ (0xE000 ≤ n ∧ n < 0x110000) then some (Char.ofNat n) else none
    | .error _ => none

inductive QuotedEnd
  | quote
  | gap
  | escapedBreak
deriving DecidableEq, Repr

/-- The next word inside single quotes, the characters it takes, and how it ends. -/
def singleWord : List Char → List Char × Nat × QuotedEnd
  | [] => ([], 0, .gap)
  | '\'' :: '\'' :: cs =>
    let (word, n, stop) := singleWord cs
    ('\'' :: word, n + 2, stop)
  | '\'' :: _ => ([], 0, .quote)
  | c :: cs =>
    if isBlank c || isBreak c then ([], 0, .gap)
    else
      let (word, n, stop) := singleWord cs
      (c :: word, n + 1, stop)

/-- The same inside double quotes; nothing at an escape that has no meaning. -/
def doubleWord : (fuel : Nat) → List Char → Option (List Char × Nat × QuotedEnd)
  | 0, _ => none
  | _ + 1, [] => some ([], 0, .gap)
  | fuel + 1, c :: cs =>
    if c = '"' then some ([], 0, .quote)
    else if isBlank c || isBreak c then some ([], 0, .gap)
    else if c = '\\' then
      match cs with
      | [] => none
      | d :: ds =>
        if isBreak d then some ([], 0, .escapedBreak)
        else
          match escapeWidth? d, unescape? d with
          | some w, _ =>
            (escapedPoint? (ds.take w) w).bind fun e =>
              (doubleWord fuel (ds.drop w)).map fun (word, n, stop) => (e :: word, n + w + 2, stop)
          | none, some e =>
            (doubleWord fuel ds).map fun (word, n, stop) => (e :: word, n + 2, stop)
          | none, none => none
    else (doubleWord fuel cs).map fun (word, n, stop) => (c :: word, n + 1, stop)

def quotedWord (single : Bool) (cs : List Char) : Option (List Char × Nat × QuotedEnd) :=
  if single then some (singleWord cs) else doubleWord (cs.length + 1) cs

/-- The text of a quoted scalar from behind its opening quote, and the place after it. -/
def quotedScalar (single : Bool) :
    (fuel : Nat) → (done : List Char) → Place → Option (List Char × Place)
  | 0, _, _ => none
  | fuel + 1, done, p =>
    if p.isDocumentEdge || p.rest.isEmpty then none
    else
      match quotedWord single p.rest with
      | none => none
      | some (word, n, stop) =>
        let done := done ++ word
        let p := p.skip n
        match stop with
        | .quote => some (done, p.skip 1)
        | .gap =>
          match Gap.extend none (p.rest.length + 1) .empty p with
          | none => none
          | some (gap, q) => quotedScalar single fuel (done ++ gap.text) q
        | .escapedBreak =>
          let p := (p.skip 1).skipBreak
          match Gap.extend none (p.rest.length + 1) .escaped p with
          | none => none
          | some (gap, q) => quotedScalar single fuel (done ++ gap.text) q

end TaggedPayload.Yaml
