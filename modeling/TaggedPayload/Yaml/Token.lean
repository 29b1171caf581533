import TaggedPayload.Yaml.BlockScalar
import TaggedPayload.Yaml.Input
import TaggedPayload.Yaml.NodeTag
import TaggedPayload.Yaml.Scalar

/-!
# Tokens of a YAML text

The tokens of block and flow collections, scalars, anchors, tags, document marks and directives. A
colon may turn the scalar or collection before it into a key. Until it is known whether that
happens, the tokens from there on are not final: a key token, and where a mapping starts also its
start token, goes in front of them. Behind the end of the line, or far enough away, it cannot happen
any more. A fault of the text ends the tokens at the first that is not final.
-/

set_option autoImplicit false

namespace TaggedPayload.Yaml

inductive ScalarStyle
  | plain
  | quoted
  | literal
  | folded
deriving DecidableEq, Repr

inductive Token
  | version (major minor : Nat)
  | tagBase (handle : String) (base : Bytes)
  | documentStart
  | documentEnd
  | streamEnd
  | blockSequenceStart
  | blockMappingStart
  | blockEnd
  | flowSequenceStart
  | flowSequenceEnd
  | flowMappingStart
  | flowMappingEnd
  | blockEntry
  | flowEntry
  | key
  | value
  | anchor (name : String)
  | alias (name : String)
  | tag (mark : TagMark)
  | scalar (text : String) (style : ScalarStyle)
deriving DecidableEq, Repr

/-- Where a key may have started. -/
structure KeyCandidate where
  /-- How many tokens came before. -/
  number : Nat
  index : Nat
  line : Nat
  column : Nat
  /-- A block mapping's indentation leaves no other reading. -/
  required : Bool
deriving DecidableEq, Repr

structure Scanner where
  place : Place
  /-- The tokens so far, last first. -/
  reversed : List Token
  count : Nat
  /-- Columns of the open block collections, innermost first. -/
  indents : List Nat
  /-- The candidate at each level of brackets, innermost first; the last stands for no brackets. -/
  candidates : List (Option KeyCandidate)
  keyAllowed : Bool
deriving DecidableEq, Repr

namespace Scanner

def start (cs : List Char) : Scanner :=
  ⟨.start cs, [], 0, [], [none], true⟩

/-- Inside brackets. -/
def flow (s : Scanner) : Bool :=
  s.candidates.length > 1

def push (s : Scanner) (t : Token) : Scanner :=
  { s with reversed := t :: s.reversed, count := s.count + 1 }

/-- Puts a token behind the first `number` tokens. -/
def insert (s : Scanner) (number : Nat) (t : Token) : Scanner :=
  { s with reversed := s.reversed.insertIdx (s.count - number) t, count := s.count + 1 }

def skip (s : Scanner) (n : Nat) : Scanner :=
  { s with place := s.place.skip n }

def allowKey (s : Scanner) (b : Bool) : Scanner :=
  { s with keyAllowed := b }

def isDeeper (s : Scanner) (column : Nat) : Bool :=
  match s.indents with
  | [] => true
  | i :: _ => i < column

/-- The least column of a continued plain scalar. -/
def leastColumn (s : Scanner) : Nat :=
  match s.indents with
  | [] => 0
  | i :: _ => i + 1

/-! ## Indentation -/

/-- Opens a block collection at a column, its start token behind the first `number` tokens. -/
def roll (s : Scanner) (column number : Nat) (t : Token) : Scanner :=
  if !s.flow && s.isDeeper column then
    { s.insert number t with indents := column :: s.indents }
  else s

/-- Closes the block collections further in than a column; without a column, all of them. -/
def unrollFrom (column : Option Nat) : List Nat → Scanner → Scanner
  | [], s => { s with indents := [] }
  | i :: is, s =>
    if column.all (· < i) then unrollFrom column is (s.push .blockEnd)
    else { s with indents := i :: is }

def unroll (s : Scanner) (column : Option Nat) : Scanner :=
  if s.flow then s else unrollFrom column s.indents s

/-! ## Keys -/

/-- Drops a candidate that is a line or too many characters back; a required one must not be. -/
def freshCandidate (p : Place) : Option KeyCandidate → Option (Option KeyCandidate)
  | none => some none
  | some k =>
    if k.line < p.line ∨ k.index + 1024 < p.index then
      if k.required then none else some none
    else some (some k)

def dropStale (s : Scanner) : Option Scanner :=
  (s.candidates.mapM (freshCandidate s.place)).map fun cs => { s with candidates := cs }

def dropCandidate (s : Scanner) : Option Scanner :=
  match s.candidates with
  | some k :: cs => if k.required then none else some { s with candidates := none :: cs }
  | _ => some s

def noteCandidate (s : Scanner) : Option Scanner :=
  if s.keyAllowed then
    s.dropCandidate.map fun s =>
      let p := s.place
      let required := !s.flow && s.indents.head? == some p.column
      let here : KeyCandidate := ⟨s.count, p.index, p.line, p.column, required⟩
      { s with candidates := some here :: s.candidates.drop 1 }
  else some s

/-! ## One token -/

/-- Skips blanks, comments and line ends up to the next token, and a byte order mark at the start
of a line. -/
def toToken : (fuel : Nat) → Scanner → Scanner
  | 0, s => s
  | fuel + 1, s =>
    match s.place.rest with
    | [] => s
    | c :: cs =>
      if c = ' ' ∨ (c = '\t' ∧ (s.flow ∨ !s.keyAllowed)) then toToken fuel (s.skip 1)
      else if c = '\ufeff' ∧ s.place.column = 0 then toToken fuel (s.skip 1)
      else if c = '#' then
        toToken fuel (s.skip (c :: cs.takeWhile (!isBreak ·)).length)
      else if isBreak c then
        toToken fuel { s with
          place := s.place.skipBreak, keyAllowed := s.keyAllowed || !s.flow }
      else s

def documentMark (s : Scanner) (t : Token) : Option Scanner :=
  (s.unroll none).dropCandidate.map fun s => ((s.allowKey false).skip 3).push t

def openFlow (s : Scanner) (t : Token) : Option Scanner :=
  s.noteCandidate.map fun s =>
    ((({ s with candidates := none :: s.candidates }).allowKey true).skip 1).push t

def closeFlow (s : Scanner) (t : Token) : Option Scanner :=
  s.dropCandidate.map fun s =>
    let outer :=
      match s.candidates with
      | _ :: c :: cs => c :: cs
      | cs => cs
    ((({ s with candidates := outer }).allowKey false).skip 1).push t

def flowEntry (s : Scanner) : Option Scanner :=
  s.dropCandidate.map fun s => ((s.allowKey true).skip 1).push .flowEntry

def blockEntry (s : Scanner) : Option Scanner :=
  if !s.flow && !s.keyAllowed then none
  else
    (s.roll s.place.column s.count .blockSequenceStart).dropCandidate.map fun s =>
      ((s.allowKey true).skip 1).push .blockEntry

def explicitKey (s : Scanner) : Option Scanner :=
  if !s.flow && !s.keyAllowed then none
  else
    (s.roll s.place.column s.count .blockMappingStart).dropCandidate.map fun s =>
      ((s.allowKey !s.flow).skip 1).push .key

def valueMark (s : Scanner) : Option Scanner :=
  match s.candidates with
  | some k :: cs =>
    let s := (s.insert k.number .key).roll k.column k.number .blockMappingStart
    some (((({ s with candidates := none :: cs }).allowKey false).skip 1).push .value)
  | _ =>
    if !s.flow && !s.keyAllowed then none
    else
      let s := s.roll s.place.column s.count .blockMappingStart
      some (((s.allowKey !s.flow).skip 1).push .value)

def reference (s : Scanner) (t : String → Token) : Option Scanner :=
  s.noteCandidate.bind fun s =>
    let name := (s.place.rest.drop 1).takeWhile isNameChar
    let s := (s.allowKey false).skip (1 + name.length)
    let ends := s.place.gapAt 0 ||
      (s.place.ahead 0).any fun c => c ∈ ['?', ':', ',', ']', '}', '%', '@', '\x60']
    if name.isEmpty || !ends then none else some (s.push (t (String.ofList name)))

def quoted (s : Scanner) (single : Bool) : Option Scanner :=
  s.noteCandidate.bind fun s =>
    let p := s.place.skip 1
    (quotedScalar single (p.rest.length + 1) [] p).map fun (text, q) =>
      ({ s with place := q, keyAllowed := false }).push (.scalar (String.ofList text) .quoted)

def plain (s : Scanner) : Option Scanner :=
  s.noteCandidate.bind fun s =>
    (plainScalar s.flow s.leastColumn (s.place.rest.length + 1) .empty [] s.place).map
      fun (text, q, broken) =>
        ({ s with place := q, keyAllowed := broken }).push (.scalar (String.ofList text) .plain)

/-- A block scalar; behind it a key may start. -/
def block (s : Scanner) (literal : Bool) : Option Scanner :=
  s.dropCandidate.bind fun s =>
    (blockScalar literal s.indents.head? (s.place.skip 1)).map fun (text, q) =>
      let style := if literal then ScalarStyle.literal else .folded
      ({ s with place := q, keyAllowed := true }).push (.scalar (String.ofList text) style)

/-- A tag, behind which a gap has to be, or between brackets a comma. -/
def nodeTag (s : Scanner) : Option Scanner :=
  s.noteCandidate.bind fun s =>
    (tagMark? s.place.rest).bind fun (mark, r) =>
      let s := (s.allowKey false).skip (s.place.rest.length - r.length)
      if s.place.gapAt 0 || (s.flow && s.place.startsWith ',') then some (s.push (.tag mark))
      else none

/-- Decimal digits at the front, at most nine of them, and the rest. -/
def versionNumber? (cs : List Char) : Option (Nat × List Char) :=
  let ds := cs.takeWhile Char.isDigit
  if ds.isEmpty ∨ ds.length > 9 then none
  else some (ds.foldl (fun n c => n * 10 + (c.toNat - 48)) 0, cs.drop ds.length)

def version? (cs : List Char) : Option (Token × List Char) := do
  let (major, cs) ← versionNumber? (cs.dropWhile isBlank)
  match cs with
  | '.' :: cs =>
    let (minor, cs) ← versionNumber? cs
    return (.version major minor, cs)
  | _ => none

def directive? (cs : List Char) : Option (Token × List Char) :=
  let rest := cs.dropWhile isNameChar
  match String.ofList (cs.takeWhile isNameChar) with
  | "YAML" => if rest.head?.any isBlank then version? rest else none
  | "TAG" =>
    if rest.head?.any isBlank then
      (tagDirective? rest).map fun ((handle, base), rest) => (.tagBase handle base, rest)
    else none
  | _ => none

def directive (s : Scanner) : Option Scanner :=
  (s.unroll none).dropCandidate.bind fun s =>
    (directive? (s.place.rest.drop 1)).bind fun (t, r) =>
      let r := r.dropWhile isBlank
      let r := if r.head? = some '#' then r.dropWhile (!isBreak ·) else r
      if r.head?.all isBreak then
        let s := (s.allowKey false).skip (s.place.rest.length - r.length)
        some ({ s with place := s.place.skipBreak }.push t)
      else none

def startsPlain (s : Scanner) (c : Char) : Bool :=
  let next := s.place.gapAt 1
  let blank := (s.place.ahead 1).any isBlank
  (!s.place.gapAt 0 &&
      !(c ∈ ['-', '?', ':', ',', '[', ']', '{', '}', '#', '&', '*', '!', '|', '>', '\'', '"', '%',
        '@', '\x60'])) ||
    (c == '-' && !blank) || (!s.flow && (c == '?' || c == ':') && !next)

def finish (s : Scanner) : Option Scanner :=
  (s.unroll none).dropCandidate.map fun s => (s.allowKey false).push .streamEnd

def token (s : Scanner) (c : Char) : Option Scanner :=
  if s.place.column = 0 ∧ c = '%' then s.directive
  else if s.place.isSeparator '-' then s.documentMark .documentStart
  else if s.place.isSeparator '.' then s.documentMark .documentEnd
  else if c = '[' then s.openFlow .flowSequenceStart
  else if c = '{' then s.openFlow .flowMappingStart
  else if c = ']' then s.closeFlow .flowSequenceEnd
  else if c = '}' then s.closeFlow .flowMappingEnd
  else if c = ',' then s.flowEntry
  else if c = '-' ∧ s.place.gapAt 1 then s.blockEntry
  else if c = '?' ∧ (s.flow ∨ s.place.gapAt 1) then s.explicitKey
  else if c = ':' ∧ (s.flow ∨ s.place.gapAt 1) then s.valueMark
  else if c = '*' then s.reference .alias
  else if c = '&' then s.reference .anchor
  else if c = '!' then s.nodeTag
  else if c = '|' ∧ !s.flow then s.block true
  else if c = '>' ∧ !s.flow then s.block false
  else if c = '\'' then s.quoted true
  else if c = '"' then s.quoted false
  else if s.startsPlain c then s.plain
  else none

/-- One more token, or several where collections close; `true` at the end of the text. -/
def step (s : Scanner) : Option (Scanner × Bool) :=
  (s.toToken (s.place.rest.length + 1)).dropStale.bind fun s =>
    let s := s.unroll (some s.place.column)
    match s.place.rest with
    | [] => s.finish.map (·, true)
    | c :: _ => ((s.token c).bind dropStale).map (·, false)

/-- The final tokens: those before every candidate. -/
def final (s : Scanner) : List Token :=
  let first := s.candidates.foldl (fun n k => (k.map fun k => min n k.number).getD n) s.count
  s.reversed.reverse.take first

def nearEnd (s : Scanner) : Bool :=
  (s.place.rest.drop 3).isEmpty

/-- Reads tokens up to the end or to a fault. In a part of a text, the last characters cannot be
read without what comes behind them. -/
def run (whole : Bool) : (fuel : Nat) → Scanner → List Token
  | 0, s => s.final
  | fuel + 1, s =>
    match s.step with
    | none => s.final
    | some (t, true) => if whole then t.reversed.reverse else s.final
    | some (t, false) => if whole || !t.nearEnd then run whole fuel t else s.final

end Scanner

/-- The tokens of a text; without a stream end when the text is faulty. -/
def tokens (cs : List Char) : List Token :=
  let (part, whole) := readable (cs.length + 1) cs
  (Scanner.start part).run whole (part.length + 1)

end TaggedPayload.Yaml
