import TaggedPayload.Text.Number
import TaggedPayload.Yaml.Place

/-!
# Block scalars

A block scalar is the indented lines behind its header. A literal one keeps its line ends; a folded
one joins lines of words by spaces, but keeps line ends around lines that start with a blank. The
indentation is that of the first line with text, unless the header gives it. The header also says
which line ends behind the last line with text count.
-/

set_option autoImplicit false

namespace TaggedPayload.Yaml

/-- Which line ends at the end of a block scalar count. -/
inductive Chomping
  /-- None. -/
  | strip
  /-- The one of the last line with text. -/
  | clip
  /-- All. -/
  | keep
deriving DecidableEq, Repr

structure BlockHeader where
  chomping : Chomping
  /-- How much further in than the collection around it the lines are; zero when not said. -/
  increment : Nat
deriving DecidableEq, Repr

namespace BlockHeader

def chomping? : Char → Option Chomping
  | '-' => some .strip
  | '+' => some .keep
  | _ => none

/-- The two marks of a header in either order, each at most once, and the text after them; nothing
when the increment is zero. -/
def ofText? : List Char → Option (BlockHeader × List Char)
  | [] => some (⟨.clip, 0⟩, [])
  | c :: cs =>
    match chomping? c with
    | some ch =>
      match cs with
      | '0' :: _ => none
      | d :: ds => if d.isDigit then some (⟨ch, d.toNat - 48⟩, ds) else some (⟨ch, 0⟩, cs)
      | [] => some (⟨ch, 0⟩, [])
    | none =>
      if c = '0' then none
      else if c.isDigit then
        match cs with
        | d :: ds =>
          match chomping? d with
          | some ch => some (⟨ch, c.toNat - 48⟩, ds)
          | none => some (⟨.clip, c.toNat - 48⟩, cs)
        | [] => some (⟨.clip, c.toNat - 48⟩, [])
      else some (⟨.clip, 0⟩, c :: cs)

end BlockHeader

/-- What stands between two lines with text: the line ends of the empty lines, the widest
indentation, and the place behind them. -/
structure BlockGap where
  breaks : List Char
  widest : Nat
  place : Place
deriving DecidableEq, Repr

namespace BlockGap

/-- Extends a gap to the next line with text. Indentation is spaces, up to the column `indent` if
that is not zero; a tab in its place is a fault. -/
def extend (indent : Nat) : (fuel : Nat) → BlockGap → Option BlockGap
  | 0, _ => none
  | fuel + 1, g =>
    let spaces := (g.place.rest.takeWhile (· == ' ')).length
    let p := g.place.skip (if indent = 0 then spaces else min spaces (indent - g.place.column))
    let widest := max g.widest p.column
    if (indent == 0 || p.column < indent) && p.startsWith '\t' then none
    else if p.rest.head?.any isBreak then
      extend indent fuel ⟨g.breaks ++ p.breakText, widest, p.skipBreak⟩
    else some ⟨g.breaks, widest, p⟩

def startingAt (indent : Nat) (p : Place) : Option BlockGap :=
  extend indent (p.rest.length + 1) ⟨[], 0, p⟩

end BlockGap

structure BlockText where
  text : List Char
  /-- The end of the last line. -/
  lastBreak : List Char
  /-- The last line starts with a blank. -/
  blank : Bool
deriving DecidableEq, Repr

namespace BlockText

def empty : BlockText := ⟨[], [], false⟩

/-- What the end of the last line counts as in front of another line. -/
def joint (t : BlockText) (literal blank : Bool) (breaks : List Char) : List Char :=
  if !literal && t.lastBreak.head? == some '\n' && !t.blank && !blank then
    if breaks.isEmpty then [' '] else breaks
  else t.lastBreak ++ breaks

/-- Takes the lines at the indentation, and gives what stands behind the last. -/
def lines (literal : Bool) (indent : Nat) :
    (fuel : Nat) → BlockText → BlockGap → Option (BlockText × BlockGap)
  | 0, _, _ => none
  | fuel + 1, t, g =>
    let p := g.place
    if p.column != indent || p.rest.isEmpty then some (t, g)
    else
      let blank := p.rest.head?.any isBlank
      let line := p.rest.takeWhile (!isBreak ·)
      let q := p.skip line.length
      let lastBreak := if q.rest.isEmpty then [] else q.breakText
      let t := ⟨t.text ++ t.joint literal blank g.breaks ++ line, lastBreak, blank⟩
      (BlockGap.startingAt indent q.skipBreak).bind (lines literal indent fuel t)

def chomped (t : BlockText) (chomping : Chomping) (breaks : List Char) : List Char :=
  match chomping with
  | .strip => t.text
  | .clip => t.text ++ t.lastBreak
  | .keep => t.text ++ t.lastBreak ++ breaks

end BlockText

/-- The text of a block scalar from behind its mark, and the place after it. Its lines are further
in than the column `parent` of the block collection around it, if there is one. -/
def blockScalar (literal : Bool) (parent : Option Nat) (p : Place) : Option (List Char × Place) :=
  (BlockHeader.ofText? p.rest).bind fun (header, r) =>
    let r := r.dropWhile isBlank
    let r := if r.head? = some '#' then r.dropWhile (!isBreak ·) else r
    if r.head?.any (!isBreak ·) then none
    else
      let p := (p.skip (p.rest.length - r.length)).skipBreak
      let given := if header.increment = 0 then 0 else parent.getD 0 + header.increment
      (BlockGap.startingAt given p).bind fun g =>
        let least := max 1 ((parent.map (· + 1)).getD 0)
        let indent := if given = 0 then max g.widest least else given
        (BlockText.empty.lines literal indent (g.place.rest.length + 1) g).map fun (t, g) =>
          (t.chomped header.chomping g.breaks, g.place)

end TaggedPayload.Yaml
