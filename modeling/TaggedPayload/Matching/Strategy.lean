import Std.Data.HashMap
import TaggedPayload.Binary.Chunks
import TaggedPayload.Json.Reader
import TaggedPayload.LogRecord
import TaggedPayload.Tag

/-!
# Finding a tag among candidates

The place of a tag in a list of candidates, found in one of two ways that agree: by a table, or by
lanes of eight keys that are compared at once. The last lane is filled up with zeros, which a mask
keeps from counting. The automatic strategy takes lanes for few candidates and many targets.
-/

set_option autoImplicit false

namespace TaggedPayload

inductive MatchStrategy
  | map
  | vectorized
  | auto
deriving DecidableEq, Repr

namespace MatchStrategy

def name : MatchStrategy → String
  | map => "map"
  | vectorized => "vectorized"
  | auto => "auto"

/-- A text that names no strategy, in lower case. -/
structure Fault where
  text : String
deriving DecidableEq, Repr

def Fault.message (f : Fault) : String :=
  s!"unknown match strategy '{f.text}' (expected map, vectorized or auto)"

/-- Reads a name of either case; `simd` is a second name for lanes. -/
def ofText (s : String) : Except Fault MatchStrategy :=
  let s := String.ofList (s.toList.map Char.toLower)
  if s = "map" then .ok map
  else if s = "vectorized" ∨ s = "simd" then .ok vectorized
  else if s = "auto" then .ok auto
  else .error ⟨s⟩

def ofName? (s : String) : Option MatchStrategy :=
  [map, vectorized, auto].find? (·.name == s)

/-- Reads a name, or an object of a name and null. -/
def ofJson : Json → Except JsonFault MatchStrategy
  | .string s => named s
  | .object [(s, .null)] => named s
  | _ => .error .malformed
where
  named (s : String) : Except JsonFault MatchStrategy :=
    match ofName? s with
    | some m => .ok m
    | none => .error .malformed

def toJson (s : MatchStrategy) : Json := .string s.name

end MatchStrategy

def laneWidth : Nat := 8

abbrev Lane := List Nat

namespace Lane

/-- A lane of at most eight keys, filled up with zeros. -/
def ofKeys (keys : List Nat) : Lane :=
  keys ++ List.replicate (laneWidth - keys.length) 0

/-- The bits of the places, from `i` on, that hold a key. -/
def maskFrom (key : Nat) : (i : Nat) → List Nat → Nat
  | _, [] => 0
  | i, k :: ks => (if k == key then 1 <<< i else 0) ||| maskFrom key (i + 1) ks

def mask (key : Nat) (l : Lane) : Nat :=
  maskFrom key 0 l

/-- The lowest bit that is set, of `width` bits from `i` on. -/
def lowestBit (bits : Nat) : (i width : Nat) → Option Nat
  | _, 0 => none
  | i, w + 1 => if bits.testBit i then some i else lowestBit bits (i + 1) w

end Lane

structure StrategyMatcher where
  strategy : MatchStrategy
  size : Nat
  /-- First places by tag, unless the strategy is lanes. -/
  table : Option (Std.HashMap Tag Nat)
  /-- Lanes of keys, unless the strategy is the table. -/
  lanes : Option (List Lane)

namespace StrategyMatcher

def tableFrom (table : Std.HashMap Tag Nat) : (i : Nat) → List Tag → Std.HashMap Tag Nat
  | _, [] => table
  | i, t :: ts => tableFrom (table.insertIfNew t i) (i + 1) ts

def lanesOf (ts : List Tag) : List Lane :=
  (chunks laneWidth (ts.map Tag.toNat)).map Lane.ofKeys

def ofList (candidates : List Tag) (strategy : MatchStrategy) : StrategyMatcher where
  strategy := strategy
  size := candidates.length
  table := if strategy = .vectorized then none else some (tableFrom ∅ 0 candidates)
  lanes := if strategy = .map then none else some (lanesOf candidates)

def madeRecord (m : StrategyMatcher) : LogRecord where
  level := .debug
  target := "progcodec_matcher::strategy"
  message := "built strategy matcher"
  fields := [("candidates", Text.natText m.size), ("strategy", m.strategy.name)]

/-- Lanes are taken for at most this many candidates. -/
def maxLaneCandidates : Nat := 64

/-- Lanes are taken for at least this many targets. -/
def minLaneTargets : Nat := 16

def effective (m : StrategyMatcher) (targets : Nat) : MatchStrategy :=
  match m.strategy with
  | .auto => if m.size ≤ maxLaneCandidates ∧ minLaneTargets ≤ targets then .vectorized else .map
  | s => s

/-- The bits of the last lane that stand for candidates. -/
def tailMask (m : StrategyMatcher) : Nat :=
  if m.size % laneWidth = 0 then (1 <<< laneWidth) - 1 else (1 <<< (m.size % laneWidth)) - 1

/-- Looks through lanes; `i` lanes came before. -/
def scan (tail key : Nat) : (i : Nat) → List Lane → Option Nat
  | _, [] => none
  | i, l :: ls =>
    let bits := if ls.isEmpty then l.mask key &&& tail else l.mask key
    match Lane.lowestBit bits 0 laneWidth with
    | some b => some (i * laneWidth + b)
    | none => scan tail key (i + 1) ls

/-- The place of a target under a strategy that is not automatic. -/
def lookup (m : StrategyMatcher) (s : MatchStrategy) (t : Tag) : Option Nat :=
  match s, m.table, m.lanes with
  | .vectorized, _, some ls => scan m.tailMask t.toNat 0 ls
  | _, some table, _ => table[t]?
  | _, none, _ => none

def matchOne (m : StrategyMatcher) (t : Tag) : Option Nat :=
  m.lookup (m.effective 1) t

def matchBatch (m : StrategyMatcher) (ts : List Tag) : List (Option Nat) :=
  ts.map (m.lookup (m.effective ts.length))

end StrategyMatcher

end TaggedPayload
